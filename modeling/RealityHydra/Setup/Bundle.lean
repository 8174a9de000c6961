import RealityHydra.Lib.TomlGrammar
import RealityHydra.PoolEngine.Document

/-!
# The connection bundle

The installer makes a client's configuration from the server's by dropping lines
and hands it over as one token.  The filter looks at lines, the key it is meant
to drop is written in TOML.
-/

set_option autoImplicit false

namespace RealityHydra.Setup

open RealityHydra.Lib.Base64
open RealityHydra.Lib.ByteCodec
open RealityHydra.Lib.Toml (Value Table Parser)
open RealityHydra.Lib.TomlDocument
open RealityHydra.Lib.TomlGrammar
open RealityHydra.Lib.Traversal
open RealityHydra.PoolEngine

def privateKeyName : Key := "private_key".toList

def realityName : Key := "reality".toList

/-! ## The shell's part -/

/-- The lines of a file; the last one may lack its newline. -/
def fileLines (text : List Char) : List (List Char) :=
  let pieces := text.splitOn '\n'
  if pieces.getLast? = some [] then pieces.dropLast else pieces

/-- What `^[[:space:]]*private_key` matches. -/
def startsPrivateKey (line : List Char) : Bool :=
  privateKeyName.isPrefixOf (line.dropWhile isSpace)

def passes (line : List Char) : Bool := !startsPrivateKey line

/-- `grep -v` with that pattern. -/
def grepInverted (text : List Char) : List Char :=
  Grammar.unlines ((fileLines text).filter passes)

/-- `$(...)`: NUL bytes and trailing newlines are dropped. -/
def commandSubstitution (output : List Char) : List Char :=
  (output.filter (· ≠ Char.ofNat 0)).rdropWhile (· = '\n')

def clientToml (serverCfg : List Char) : List Char :=
  commandSubstitution (grepInverted serverCfg)

def bundleScheme : List Char := "hydra://".toList

section Token

variable (tool : Engine)

/-- The line breaks of `base64` are taken out again by `tr`. -/
def makeBundle (serverCfg : String) : List Char :=
  bundleScheme ++ tool.encode (utf8Bytes (String.ofList (clientToml serverCfg.toList))) ++ ['\n']

def decodeBundle (token : List Char) : Option String :=
  let body := (token.dropPrefix? bundleScheme).getD token
  match tool.decode body with
  | .ok bytes => fromUtf8 bytes
  | .error _ => none

variable {tool}

theorem newline_not_symbol : '\n' ∉ alphabet := by decide +kernel

theorem nul_not_symbol : Char.ofNat 0 ∉ alphabet := by decide +kernel

theorem not_mem_encode (lawful : tool.Lawful) (bytes : Bytes) {c : Char}
    (foreign : c ∉ alphabet) (notPad : c ≠ '=') : c ∉ tool.encode bytes := by
  intro isIn
  rcases lawful.symbols bytes c isIn with symbol | pad
  · exact foreign symbol
  · exact notPad pad

theorem commandSubstitution_line {line : List Char} (noNul : Char.ofNat 0 ∉ line)
    (unbroken : '\n' ∉ line) : commandSubstitution (line ++ ['\n']) = line := by
  have kept : (line ++ ['\n']).filter (· ≠ Char.ofNat 0) = line ++ ['\n'] := by
    rw [List.filter_eq_self]
    intro c isIn
    rw [decide_eq_true_eq]
    rintro rfl
    rcases List.mem_append.mp isIn with inLine | last
    · exact noNul inLine
    · exact absurd (List.mem_singleton.mp last) (by decide)
  rw [commandSubstitution, kept, List.rdropWhile_concat_pos _ _ _ (by simp),
    List.rdropWhile_eq_self_iff]
  intro nonempty
  rw [decide_eq_true_eq]
  intro isNewline
  exact unbroken (isNewline ▸ List.getLast_mem nonempty)

theorem commandSubstitution_makeBundle (lawful : tool.Lawful) (serverCfg : String) :
    commandSubstitution (makeBundle tool serverCfg) =
      bundleScheme ++ tool.encode (utf8Bytes (String.ofList (clientToml serverCfg.toList))) := by
  have noNul := not_mem_encode lawful
    (utf8Bytes (String.ofList (clientToml serverCfg.toList))) nul_not_symbol (by decide)
  have unbroken := not_mem_encode lawful
    (utf8Bytes (String.ofList (clientToml serverCfg.toList))) newline_not_symbol (by decide)
  have scheme : Char.ofNat 0 ∉ bundleScheme ∧ '\n' ∉ bundleScheme := by decide +kernel
  rw [makeBundle, commandSubstitution_line (by simp [scheme.1, noNul])
    (by simp [scheme.2, unbroken])]

theorem decode_makeBundle (lawful : tool.Lawful) (serverCfg : String) :
    decodeBundle tool (commandSubstitution (makeBundle tool serverCfg)) =
      some (String.ofList (clientToml serverCfg.toList)) := by
  rw [commandSubstitution_makeBundle lawful, decodeBundle,
    List.dropPrefix?_append_of_beq _ BEq.rfl]
  simp only [Option.getD_some, lawful.decode_encode, fromUtf8_utf8Bytes]

end Token

/-! ## What the filter leaves -/

/-- Keys that begin like the private key's, which the configuration has but one of. -/
def beginsPrivateKey (key : Key) : Bool := privateKeyName.isPrefixOf key

theorem unlines_fileLines (text : List Char) :
    (Grammar.unlines ((fileLines text).filter passes)).rdropWhile (· = '\n') =
      (Grammar.unlines ((text.splitOn '\n').filter passes)).rdropWhile (· = '\n') := by
  rw [fileLines]
  split
  · rename_i ends
    have whole := List.dropLast_append_getLast? _ ends
    have kept : [([] : List Char)].filter passes = [[]] := rfl
    conv_rhs => rw [← whole, List.filter_append, kept, Grammar.unlines_concat, List.append_nil,
      List.rdropWhile_concat_pos _ _ _ (by simp)]
  · rfl

theorem clientToml_eq {text : List Char} (noNul : ∀ line ∈ text.splitOn '\n', Char.ofNat 0 ∉ line) :
    clientToml text =
      (Grammar.unlines ((text.splitOn '\n').filter passes)).rdropWhile (· = '\n') := by
  have kept : (grepInverted text).filter (· ≠ Char.ofNat 0) = grepInverted text := by
    rw [List.filter_eq_self]
    intro c isIn
    rw [decide_eq_true_eq]
    rintro rfl
    obtain ⟨line, isLine, inLine⟩ := List.mem_flatMap.mp isIn
    have isPiece : line ∈ text.splitOn '\n' := by
      have inFile := (List.mem_filter.mp isLine).1
      rw [fileLines] at inFile
      split at inFile
      · exact (List.dropLast_sublist _).subset inFile
      · exact inFile
    rcases List.mem_append.mp inLine with inside | newline
    · exact noNul line isPiece inside
    · exact absurd (List.mem_singleton.mp newline) (by decide)
  rw [clientToml, commandSubstitution, kept, grepInverted, unlines_fileLines]

/-- The lines that the filter leaves, up to the last that is not blank. -/
def keptLines (text : List Char) : List (List Char) :=
  Grammar.trimmedLines ((text.splitOn '\n').filter passes)

theorem clientToml_pieces {text : List Char}
    (noNul : ∀ line ∈ text.splitOn '\n', Char.ofNat 0 ∉ line) :
    (clientToml text).splitOn '\n' = keptLines text := by
  rw [clientToml_eq noNul]
  apply Grammar.splitOn_rdropWhile
  intro line isIn
  exact Lib.Text.not_mem_of_mem_splitOn (List.mem_filter.mp isIn).1

section Reading

variable {grammar : Grammar} {text : List Char} {reading : Reading}

theorem privateKeyName_bare : Lib.Toml.BareKey privateKeyName := by decide +kernel

/-- A line that starts like the private key's is the first of a pair under a key
that does. -/
theorem pair_of_startsPrivateKey (lawful : grammar.Lawful) {line : List Char}
    {others : List (List Char)} {expression : Expression}
    (starts : startsPrivateKey line = true)
    (read : grammar.expression (line :: others) = some expression) :
    ∃ key more value, expression = .pair key more value ∧ beginsPrivateKey key = true := by
  obtain ⟨rest, isRest⟩ := List.isPrefixOf_iff_prefix.mp starts
  have whole : line = line.takeWhile isSpace ++ (privateKeyName ++ rest) := by
    rw [isRest, List.takeWhile_append_dropWhile]
  rw [whole] at read
  obtain ⟨tail, more, value, isPair⟩ := lawful.bareKey _ privateKeyName rest others expression
    (fun c isIn => List.mem_takeWhile_imp isIn) privateKeyName_bare read
  exact ⟨_, more, value, isPair, List.isPrefixOf_iff_prefix.mpr (List.prefix_append ..)⟩

/-- The filter does not look behind a byte-order mark. -/
theorem passes_marked (content : List Char) : passes (mark :: content) = true := rfl

theorem pair_of_all_dropped (lawful : grammar.Lawful) {lines : List TextLine}
    {expression : Expression} (read : grammar.interpret lines = some expression)
    (dropped : lines.filter (passes ·.written) = []) :
    ∃ key more value, expression = .pair key more value ∧ beginsPrivateKey key = true := by
  cases lines with
  | nil =>
      rw [Grammar.interpret_nil lawful] at read
      contradiction
  | cons line others =>
      have fails := List.filter_eq_nil_iff.mp dropped line List.mem_cons_self
      obtain ⟨marked, content⟩ := line
      cases marked with
      | true => exact absurd (passes_marked content) fails
      | false =>
          have starts : startsPrivateKey content = true := by
            simpa [passes, written_unmarked] using fails
          exact pair_of_startsPrivateKey lawful starts read

theorem noNul_of_reads (lawful : grammar.Lawful) (reads : grammar.Reads text reading) :
    ∀ line ∈ text.splitOn '\n', Char.ofNat 0 ∉ line := by
  intro line isLine
  rw [reads.lines] at isLine
  obtain ⟨⟨marked, content⟩, isIn, rfl⟩ := List.mem_map.mp isLine
  obtain ⟨part, isPart, inPart⟩ := List.mem_flatMap.mp isIn
  have noNul : Char.ofNat 0 ∉ content := by
    refine lawful.noNul (part.1.map TextLine.content) ?_ content (List.mem_map_of_mem inPart)
    rw [← Grammar.interpret, reads.means part isPart]
    rfl
  cases marked with
  | false => exact noNul
  | true => exact List.not_mem_cons_of_ne_of_not_mem (by decide) noNul

/-- The client's text reads as what the filter leaves of each expression, if its last
line can stand without a newline. -/
theorem clientToml_reads (lawful : grammar.Lawful) (reads : grammar.Reads text reading)
    (clean : ∀ part ∈ reading, grammar.Clean beginsPrivateKey passes part) :
    Leaves beginsPrivateKey (Reading.expressions (grammar.left passes reading))
        reading.expressions ∧
      (EndsPlain (keptLines text) →
        ∃ later, grammar.Reads (clientToml text) later ∧
          build later.expressions =
            build (Reading.expressions (grammar.left passes reading))) := by
  have leaves := Grammar.left_leaves lawful clean fun part isIn dropped =>
    pair_of_all_dropped lawful (reads.means part isIn) dropped
  refine ⟨leaves, ?_⟩
  intro ends
  have lines := Grammar.left_lines lawful clean
  have marks : grammar.Marks (Reading.lines (grammar.left passes reading)) := by
    rw [lines]
    exact reads.marks.sublist List.filter_sublist
  obtain ⟨later, same, marked, means, apart⟩ :=
    Grammar.read_trimmed lawful (grammar.left passes reading) marks Grammar.left_means
  have kept : (clientToml text).splitOn '\n' = later.lines.map TextLine.written := by
    rw [clientToml_pieces (noNul_of_reads lawful reads), same, keptLines, reads.lines, lines,
      List.filter_map]
    rfl
  refine ⟨later, ⟨kept, ?_, marked, means, ?_⟩, ?_⟩
  · rw [clientToml_pieces (noNul_of_reads lawful reads)]
    exact ends
  · exact lawful.leaves beginsPrivateKey _ _ (apart.leaves _)
      (lawful.leaves beginsPrivateKey _ _ leaves reads.valid)
  · rw [build, build, apart.run]

end Reading

/-! ## The fields that are left -/

section Fields

variable {hidden : Key → Bool}

/-- Reading a value takes no notice of entries under hidden keys. -/
def Unaware {α : Type} (hidden : Key → Bool) (read : Value → Option α) : Prop :=
  ∀ value, read (strip hidden value) = read value

theorem unaware_asString : Unaware hidden asString := by
  intro value
  cases value <;> rfl

theorem unaware_asUsize : Unaware hidden asUsize := by
  intro value
  cases value <;> rfl

theorem unaware_asF64 : Unaware hidden asF64 := by
  intro value
  cases value <;> rfl

theorem Unaware.asList {α : Type} {read : Value → Option α} (unaware : Unaware hidden read) :
    Unaware hidden (asList read) := by
  intro value
  cases value with
  | array items =>
      have same : read ∘ strip hidden = read := funext unaware
      rw [strip, PoolEngine.asList, PoolEngine.asList, stripItems_eq_map, List.mapM_map, same]
  | _ => rfl

section Tables

variable {α : Type} {read : Value → Option α} (unaware : Unaware hidden read) (table : Table)
  {key : String} (shown : hidden key.toList = false)

include unaware shown

theorem required_strip :
    required read (stripEntries hidden table) key = required read table key := by
  rw [required, required, lookup_stripEntries, shown]
  cases table.lookup key.toList with
  | none => rfl
  | some value => exact unaware value

theorem orDefault_strip (default : α) :
    orDefault read (stripEntries hidden table) key default = orDefault read table key default := by
  rw [orDefault, orDefault, lookup_stripEntries, shown]
  cases table.lookup key.toList with
  | none => rfl
  | some value => exact unaware value

theorem orNone_strip : orNone read (stripEntries hidden table) key = orNone read table key := by
  refine orDefault_strip ?_ table shown none
  intro value
  exact congrArg (Option.map some) (unaware value)

end Tables

end Fields

/-- No field but the private key has a name that begins like its. -/
theorem shown_names : ∀ key ∈ ["master_secret", "server_salt", "pool_format", "epoch_len",
    "active_k", "dest", "coherence_cidrs", "pool", "reality", "server_addr", "cert_pin", "sni",
    "weight", "public_key", "short_ids", "fingerprint"],
    beginsPrivateKey key.toList = false := by
  decide +kernel

/-- A structure without hidden fields is stripped value by value, however it is given. -/
theorem asStruct_strip {hidden : Key → Bool} {fields : List String}
    (shown : ∀ field ∈ fields, hidden field.toList = false) (value : Value) :
    asStruct fields (strip hidden value) = (asStruct fields value).map (stripEntries hidden) := by
  have zipped : ∀ items : List Value,
      (fields.map String.toList).zip (items.map (strip hidden)) =
        stripEntries hidden ((fields.map String.toList).zip items) := by
    induction fields with
    | nil => exact fun _ => rfl
    | cons field fields ih =>
        obtain ⟨first, others⟩ := List.forall_mem_cons.mp shown
        intro items
        cases items with
        | nil => rfl
        | cons item items =>
            rw [List.map_cons, List.map_cons, List.zip_cons_cons, List.zip_cons_cons, stripEntries,
              first, ih others items]
            rfl
  cases value with
  | array items =>
      rw [strip, asStruct, asStruct, stripItems_eq_map, zipped]
      rfl
  | _ => rfl

theorem poolEntry_strip (table : Table) :
    PoolEntry.deserialize (stripEntries beginsPrivateKey table) = PoolEntry.deserialize table := by
  rw [PoolEntry.deserialize, PoolEntry.deserialize,
    required_strip unaware_asString table (shown_names "sni" (by simp)),
    required_strip unaware_asF64 table (shown_names "weight" (by simp))]

theorem unaware_asPoolEntry : Unaware beginsPrivateKey asPoolEntry := by
  intro value
  have shown : ∀ field ∈ ["sni", "weight"], beginsPrivateKey field.toList = false := by
    decide +kernel
  rw [asPoolEntry, asPoolEntry, asStruct_strip shown]
  cases asStruct ["sni", "weight"] value with
  | none => rfl
  | some table => exact poolEntry_strip table

def withoutKey (raw : RawReality) : RawReality := { raw with privateKey := none }

theorem lookup_privateKey_strip (table : Table) :
    (stripEntries beginsPrivateKey table).lookup "private_key".toList = none := by
  rw [lookup_stripEntries, if_pos (by decide +kernel)]

theorem reality_strip {table : Table} {raw : RawReality}
    (read : RawReality.deserialize table = some raw) :
    RawReality.deserialize (stripEntries beginsPrivateKey table) = some (withoutKey raw) := by
  have none_ : orNone asString (stripEntries beginsPrivateKey table) "private_key" = some none := by
    rw [orNone, orDefault, lookup_privateKey_strip]
  rw [RawReality.deserialize] at read ⊢
  rw [none_, required_strip unaware_asString table (shown_names "public_key" (by simp)),
    orDefault_strip unaware_asString.asList table (shown_names "short_ids" (by simp)),
    orDefault_strip unaware_asString table (shown_names "fingerprint" (by simp))]
  simp only [Option.bind_eq_bind, Option.bind_eq_some_iff, Option.some.injEq] at read ⊢
  obtain ⟨_, _, publicKey, isPublic, shortIds, areShort, fingerprint, isPrint, rfl⟩ := read
  exact ⟨none, rfl, publicKey, isPublic, shortIds, areShort, fingerprint, isPrint, rfl⟩

theorem reality_strip_of_lacks {table : Table}
    (lacks : table.lookup "private_key".toList = none) :
    RawReality.deserialize (stripEntries beginsPrivateKey table) =
      RawReality.deserialize table := by
  have same : orNone asString (stripEntries beginsPrivateKey table) "private_key" =
      orNone asString table "private_key" := by
    rw [orNone, orNone, orDefault, orDefault, lookup_privateKey_strip, lacks]
  rw [RawReality.deserialize, RawReality.deserialize, same,
    required_strip unaware_asString table (shown_names "public_key" (by simp)),
    orDefault_strip unaware_asString.asList table (shown_names "short_ids" (by simp)),
    orDefault_strip unaware_asString table (shown_names "fingerprint" (by simp))]

/-- The same document without the private key. -/
def rawConfigWithoutKey (raw : RawConfig) : RawConfig :=
  { raw with reality := raw.reality.map withoutKey }

theorem realityField_strip {table : Table} {reality : Option RawReality}
    (byName : ∀ items, table.lookup "reality".toList ≠ some (.array items))
    (read : orNone asReality table "reality" = some reality) :
    orNone asReality (stripEntries beginsPrivateKey table) "reality" =
      some (reality.map withoutKey) := by
  rw [orNone, orDefault] at read ⊢
  rw [lookup_stripEntries, shown_names "reality" (by simp)]
  cases held : table.lookup "reality".toList with
  | none =>
      rw [held] at read
      cases read
      rfl
  | some value =>
      rw [held] at read
      obtain ⟨raw, isRaw, rfl⟩ := Option.map_eq_some_iff.mp read
      cases value with
      | table entries =>
          have stripped := reality_strip isRaw
          exact congrArg (Option.map some) stripped
      | array items => exact absurd held (byName items)
      | _ => contradiction

theorem realityField_of_lacks {table : Table}
    (lacks : ¬ Carries realityName privateKeyName table) :
    orNone asReality (stripEntries beginsPrivateKey table) "reality" =
      orNone asReality table "reality" := by
  rw [orNone, orNone, orDefault, orDefault, lookup_stripEntries, shown_names "reality" (by simp)]
  cases held : table.lookup "reality".toList with
  | none => rfl
  | some value =>
      cases value with
      | table entries =>
          have absent : entries.lookup "private_key".toList = none :=
            Option.not_isSome_iff_eq_none.mp fun inside => lacks ⟨_, held, inside⟩
          have same := reality_strip_of_lacks absent
          exact congrArg (Option.map some) same
      | array items => exact absurd ⟨_, held, rfl⟩ lacks
      | _ => rfl

/-- `RawConfig.deserialize` with the reality table already read. -/
def deserializeAround (table : Table) (reality : Option (Option RawReality)) :
    Option RawConfig := do
  let masterSecret ← required asString table "master_secret"
  let serverSalt ← required asString table "server_salt"
  let poolFormat ← orDefault asString table "pool_format" expectedFormat
  let epochLen ← orDefault asString table "epoch_len" "6h"
  let activeK ← required asUsize table "active_k"
  let dest ← orNone asString table "dest"
  let coherenceCidrs ← orDefault (asList asString) table "coherence_cidrs" []
  let pool ← orDefault (asList asPoolEntry) table "pool" []
  let reality ← reality
  let serverAddr ← orNone asString table "server_addr"
  let certPin ← orNone asString table "cert_pin"
  some
    { masterSecret, serverSalt, poolFormat, epochLen, activeK, dest, coherenceCidrs, pool,
      reality, serverAddr, certPin }

theorem deserialize_eq_around (table : Table) :
    RawConfig.deserialize table =
      deserializeAround table (orNone asReality table "reality") :=
  rfl

theorem deserializeAround_strip (table : Table) :
    deserializeAround (stripEntries beginsPrivateKey table) = deserializeAround table := by
  funext reality
  rw [deserializeAround, deserializeAround,
    required_strip unaware_asString table (shown_names "master_secret" (by simp)),
    required_strip unaware_asString table (shown_names "server_salt" (by simp)),
    orDefault_strip unaware_asString table (shown_names "pool_format" (by simp)),
    orDefault_strip unaware_asString table (shown_names "epoch_len" (by simp)),
    required_strip unaware_asUsize table (shown_names "active_k" (by simp)),
    orNone_strip unaware_asString table (shown_names "dest" (by simp)),
    orDefault_strip unaware_asString.asList table (shown_names "coherence_cidrs" (by simp)),
    orDefault_strip unaware_asPoolEntry.asList table (shown_names "pool" (by simp)),
    orNone_strip unaware_asString table (shown_names "server_addr" (by simp)),
    orNone_strip unaware_asString table (shown_names "cert_pin" (by simp))]

/-- What every field of the configuration was read from. -/
structure ReadsAround (table : Table) (reality : Option (Option RawReality)) (raw : RawConfig) :
    Prop where
  masterSecret : required asString table "master_secret" = some raw.masterSecret
  serverSalt : required asString table "server_salt" = some raw.serverSalt
  poolFormat : orDefault asString table "pool_format" expectedFormat = some raw.poolFormat
  epochLen : orDefault asString table "epoch_len" "6h" = some raw.epochLen
  activeK : required asUsize table "active_k" = some raw.activeK
  dest : orNone asString table "dest" = some raw.dest
  coherenceCidrs :
    orDefault (asList asString) table "coherence_cidrs" [] = some raw.coherenceCidrs
  pool : orDefault (asList asPoolEntry) table "pool" [] = some raw.pool
  reality : reality = some raw.reality
  serverAddr : orNone asString table "server_addr" = some raw.serverAddr
  certPin : orNone asString table "cert_pin" = some raw.certPin

theorem deserializeAround_eq_some_iff {table : Table} {reality : Option (Option RawReality)}
    {raw : RawConfig} :
    deserializeAround table reality = some raw ↔ ReadsAround table reality raw := by
  constructor
  · intro read
    obtain ⟨_, secret, read⟩ := Option.bind_eq_some_iff.mp read
    obtain ⟨_, salt, read⟩ := Option.bind_eq_some_iff.mp read
    obtain ⟨_, format, read⟩ := Option.bind_eq_some_iff.mp read
    obtain ⟨_, epoch, read⟩ := Option.bind_eq_some_iff.mp read
    obtain ⟨_, active, read⟩ := Option.bind_eq_some_iff.mp read
    obtain ⟨_, dest, read⟩ := Option.bind_eq_some_iff.mp read
    obtain ⟨_, cidrs, read⟩ := Option.bind_eq_some_iff.mp read
    obtain ⟨_, pool, read⟩ := Option.bind_eq_some_iff.mp read
    obtain ⟨_, around, read⟩ := Option.bind_eq_some_iff.mp read
    obtain ⟨_, addr, read⟩ := Option.bind_eq_some_iff.mp read
    obtain ⟨_, pin, read⟩ := Option.bind_eq_some_iff.mp read
    cases Option.some.inj read
    exact ⟨secret, salt, format, epoch, active, dest, cidrs, pool, around, addr, pin⟩
  · intro read
    rw [deserializeAround, read.masterSecret, read.serverSalt, read.poolFormat, read.epochLen,
      read.activeK, read.dest, read.coherenceCidrs, read.pool, read.reality, read.serverAddr,
      read.certPin]
    rfl

theorem deserializeAround_withoutKey {table : Table} {reality : Option RawReality}
    {raw : RawConfig} (read : deserializeAround table (some reality) = some raw) :
    deserializeAround table (some (reality.map withoutKey)) = some (rawConfigWithoutKey raw) := by
  have fields := deserializeAround_eq_some_iff.mp read
  apply deserializeAround_eq_some_iff.mpr
  have same : reality = raw.reality := Option.some.inj fields.reality
  exact { fields with reality := congrArg (fun held => some (held.map withoutKey)) same }

/-- A document that shows the same as another and has no private key reads like
it without the private key. -/
theorem deserialize_of_alike {table later : Table} {raw : RawConfig}
    (read : RawConfig.deserialize table = some raw)
    (alike : stripEntries beginsPrivateKey later = stripEntries beginsPrivateKey table)
    (lacks : ¬ Carries realityName privateKeyName later) :
    RawConfig.deserialize later = some (rawConfigWithoutKey raw) := by
  have byName : ∀ items, table.lookup "reality".toList ≠ some (.array items) := by
    intro items held
    have shown : (stripEntries beginsPrivateKey later).lookup "reality".toList =
        some (.array (stripItems beginsPrivateKey items)) := by
      rw [alike, lookup_stripEntries, shown_names "reality" (by simp), held]
      rfl
    rw [lookup_stripEntries, shown_names "reality" (by simp)] at shown
    obtain ⟨value, isHeld, isArray⟩ := Option.map_eq_some_iff.mp shown
    obtain ⟨inner, rfl, -⟩ := strip_eq_array isArray
    exact lacks ⟨_, isHeld, rfl⟩
  rw [deserialize_eq_around] at read ⊢
  cases field : orNone asReality table "reality" with
  | none =>
      rw [field] at read
      have impossible := (deserializeAround_eq_some_iff.mp read).reality
      contradiction
  | some reality =>
      rw [field] at read
      rw [← realityField_of_lacks lacks, ← deserializeAround_strip, alike,
        realityField_strip byName field, deserializeAround_strip]
      exact deserializeAround_withoutKey read

theorem privateKey_of_entry {entries : Table} {found : RawReality}
    (read : RawReality.deserialize entries = some found)
    (inside : (entries.lookup "private_key".toList).isSome) :
    ∃ key, found.privateKey = some key := by
  obtain ⟨text, isText⟩ := Option.isSome_iff_exists.mp inside
  simp only [RawReality.deserialize, Option.bind_eq_bind, Option.bind_eq_some_iff,
    Option.some.injEq] at read
  obtain ⟨key, isKey, _, _, _, _, _, _, rfl⟩ := read
  rw [orNone, orDefault, isText] at isKey
  obtain ⟨written, -, rfl⟩ := Option.map_eq_some_iff.mp isKey
  exact ⟨written, rfl⟩

/-- By order the private key comes first, and the public key cannot be left out. -/
theorem privateKey_of_items {items : List Value} {found : RawReality}
    (read : asReality (.array items) = some found) : ∃ key, found.privateKey = some key := by
  obtain ⟨entries, isEntries, read⟩ := Option.bind_eq_some_iff.mp read
  cases isEntries
  refine privateKey_of_entry read ?_
  cases items with
  | nil => contradiction
  | cons item items => rfl

/-- A document with a private key reads with one. -/
theorem privateKey_of_carries {table : Table} {raw : RawConfig}
    (read : RawConfig.deserialize table = some raw)
    (carries : Carries realityName privateKeyName table) :
    ∃ reality key, raw.reality = some reality ∧ reality.privateKey = some key := by
  obtain ⟨value, isHeld, inside⟩ := carries
  have isHeld : table.lookup "reality".toList = some value := isHeld
  rw [deserialize_eq_around] at read
  have field := (deserializeAround_eq_some_iff.mp read).reality
  rw [orNone, orDefault, isHeld] at field
  obtain ⟨found, isReality, same⟩ := Option.map_eq_some_iff.mp field
  have keyed : ∃ key, found.privateKey = some key := by
    cases value with
    | table entries => exact privateKey_of_entry isReality inside
    | array items => exact privateKey_of_items isReality
    | _ => contradiction
  obtain ⟨key, isKey⟩ := keyed
  exact ⟨found, key, same.symm, isKey⟩

/-! ## The bundle's configuration -/

def withoutPrivateKey (cfg : HydraConfig) : HydraConfig :=
  { cfg with reality := cfg.reality.map fun settings => { settings with privateKey := none } }

theorem intoSettings_withoutKey {base64 : Engine} {raw : RawReality} {settings : RealitySettings}
    (accepted : raw.intoSettings base64 = .ok settings) :
    (withoutKey raw).intoSettings base64 = .ok { settings with privateKey := none } := by
  simp only [RawReality.intoSettings, bind_ok_iff] at accepted ⊢
  obtain ⟨publicKey, isPublic, _, _, shortIds, decoded, same⟩ := accepted
  cases same
  exact ⟨publicKey, isPublic, none, rfl, shortIds, decoded, rfl⟩

theorem loads_withoutKey {base64 : Engine} {raw : RawConfig} {cfg : HydraConfig}
    (loads : raw.Loads base64 cfg) :
    (rawConfigWithoutKey raw).Loads base64 (withoutPrivateKey cfg) := by
  refine ⟨loads.format, loads.secret, loads.salt, loads.activeK, loads.epochLen,
    loads.masterList, ?_, loads.certPin, loads.dest, loads.coherenceCidrs, loads.serverAddr⟩
  have related := loads.reality
  cases document : raw.reality with
  | none =>
      rw [document] at related
      cases settings : cfg.reality with
      | none => simp [rawConfigWithoutKey, withoutPrivateKey, document, settings]
      | some _ =>
          rw [settings] at related
          exact (Option.not_rel_none_some related).elim
  | some raw =>
      rw [document] at related
      cases settings : cfg.reality with
      | none =>
          rw [settings] at related
          exact (Option.not_rel_some_none related).elim
      | some found =>
          rw [settings, Option.rel_some_some] at related
          simp only [rawConfigWithoutKey, withoutPrivateKey, document, settings, Option.map_some,
            Option.rel_some_some]
          exact intoSettings_withoutKey related

section Faithful

variable (toml : Parser) (base64 tool : Engine) (serverCfg : String) (cfg : HydraConfig)

/-- The token decodes to a text that loads as the server's configuration without
the private key. -/
def FaithfulBundle : Prop :=
  ∃ text, decodeBundle tool (commandSubstitution (makeBundle tool serverCfg)) = some text ∧
    HydraConfig.fromTomlStr toml base64 text = .ok (withoutPrivateKey cfg)

variable {toml base64 tool serverCfg cfg} {grammar : Grammar} {reading : Reading}

theorem faithful_iff (toolLawful : tool.Lawful) :
    FaithfulBundle toml base64 tool serverCfg cfg ↔
      HydraConfig.fromTomlStr toml base64 (String.ofList (clientToml serverCfg.toList)) =
        .ok (withoutPrivateKey cfg) := by
  rw [FaithfulBundle, decode_makeBundle toolLawful]
  refine ⟨?_, fun loads => ⟨_, rfl, loads⟩⟩
  intro decoded
  obtain ⟨text, same, loads⟩ := decoded
  rw [Option.some.inj same]
  exact loads

variable (lawful : grammar.Lawful) (follows : grammar.FollowedBy toml)
  (toolLawful : tool.Lawful) (accepted : HydraConfig.fromTomlStr toml base64 serverCfg = .ok cfg)
  (reads : grammar.Reads serverCfg.toList reading)
  (clean : ∀ part ∈ reading, grammar.Clean beginsPrivateKey passes part)

include follows toolLawful

/-- A bundle that ends in a bare carriage return is refused. -/
theorem ends_of_faithful (noNul : ∀ line ∈ serverCfg.toList.splitOn '\n', Char.ofNat 0 ∉ line)
    (faithful : FaithfulBundle toml base64 tool serverCfg cfg) :
    EndsPlain (keptLines serverCfg.toList) := by
  obtain ⟨table, _, parsed, -⟩ :=
    HydraConfig.fromTomlStr_ok_iff.mp ((faithful_iff toolLawful).mp faithful)
  obtain ⟨later, clientReads, -⟩ := (follows _ _).mp parsed
  rw [← clientToml_pieces noNul, ← String.toList_ofList (l := clientToml serverCfg.toList)]
  exact clientReads.ends

omit toolLawful

include lawful reads clean

/-- The client's text parses to what is left of the server's, and shows the same. -/
theorem clientToml_parses (ends : EndsPlain (keptLines serverCfg.toList)) {table : Table}
    (parsed : toml.parse serverCfg.toList = .ok table) :
    ∃ later, toml.parse (clientToml serverCfg.toList) = .ok later ∧
      build (Reading.expressions (grammar.left passes reading)) = some later ∧
      stripEntries beginsPrivateKey later = stripEntries beginsPrivateKey table := by
  obtain ⟨leaves, trimmed⟩ := clientToml_reads lawful reads clean
  obtain ⟨clientReading, clientReads, same⟩ := trimmed ends
  obtain ⟨later, built⟩ := Option.isSome_iff_exists.mp
    (lawful.defined _ (lawful.leaves beginsPrivateKey _ _ leaves reads.valid))
  obtain ⟨whole, builtWhole⟩ := Option.isSome_iff_exists.mp (lawful.defined _ reads.valid)
  have isTable := (follows _ _).mpr ⟨reading, reads, builtWhole⟩
  rw [parsed] at isTable
  cases isTable
  refine ⟨later, (follows _ _).mpr ⟨clientReading, clientReads, same.trans built⟩, built, ?_⟩
  exact build_leaves leaves built builtWhole

include toolLawful accepted

theorem faithful_of_unwritten (ends : EndsPlain (keptLines serverCfg.toList))
    (unwritten : ¬ SomeWrites realityName privateKeyName []
      (Reading.expressions (grammar.left passes reading))) :
    FaithfulBundle toml base64 tool serverCfg cfg := by
  obtain ⟨table, raw, parsed, read, loads⟩ := HydraConfig.fromTomlStr_ok_iff.mp accepted
  obtain ⟨later, parsedLater, built, alike⟩ :=
    clientToml_parses lawful follows reads clean ends parsed
  refine (faithful_iff toolLawful).mpr (HydraConfig.fromTomlStr_ok_iff.mpr
    ⟨later, rawConfigWithoutKey raw, ?_, ?_, loads_withoutKey loads⟩)
  · rw [String.toList_ofList]
    exact parsedLater
  · refine deserialize_of_alike read alike ?_
    rw [build_carries built]
    exact unwritten

theorem not_faithful_of_written
    (written : SomeWrites realityName privateKeyName []
      (Reading.expressions (grammar.left passes reading))) :
    ¬ FaithfulBundle toml base64 tool serverCfg cfg := by
  intro faithful
  have ends := ends_of_faithful follows toolLawful (noNul_of_reads lawful reads) faithful
  obtain ⟨table, _, parsed, -⟩ := HydraConfig.fromTomlStr_ok_iff.mp accepted
  obtain ⟨later, parsedLater, built, -⟩ :=
    clientToml_parses lawful follows reads clean ends parsed
  obtain ⟨found, raw, parsedFound, read, loads⟩ :=
    HydraConfig.fromTomlStr_ok_iff.mp ((faithful_iff toolLawful).mp faithful)
  rw [String.toList_ofList, parsedLater] at parsedFound
  cases parsedFound
  obtain ⟨reality, key, isReality, isKey⟩ :=
    privateKey_of_carries read ((build_carries built).mpr written)
  have related := loads.reality
  rw [isReality] at related
  cases settings : (withoutPrivateKey cfg).reality with
  | none =>
      rw [settings] at related
      exact Option.not_rel_some_none related
  | some found =>
      rw [settings, Option.rel_some_some] at related
      simp only [RawReality.intoSettings, isKey, bind_ok_iff, optionMapM_ok_iff] at related
      obtain ⟨_, _, privateKey, isPrivate, _, _, same⟩ := related
      cases same
      obtain ⟨original, _, same⟩ := Option.map_eq_some_iff.mp settings
      have none_ : none = privateKey := congrArg RealitySettings.privateKey same
      rw [← none_] at isPrivate
      exact Option.not_rel_some_none isPrivate

end Faithful

end RealityHydra.Setup
