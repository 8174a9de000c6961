import RealityHydra.HydraCli.InitDocument

/-!
# What `init` writes loads back

Of the document only `dest`, `epoch_len` and `active_k` are not the command's
own, and they are interpolated as they are.
-/

set_option autoImplicit false

namespace RealityHydra.HydraCli

open RealityHydra.Lib.Base64
open RealityHydra.Lib.Text
open RealityHydra.Lib.Toml
open RealityHydra.Lib.Traversal
open RealityHydra.PoolEngine

/-! ## Loading the text -/

/-- What the loaded configuration is to hold. -/
structure LoadsBack (keys : Generated) (args : InitArgs) (cfg : HydraConfig) : Prop where
  dest : cfg.dest = some args.dest
  activeK : cfg.activeK = args.activeK.toNat
  epochLen : parseDuration args.epochLen = .ok cfg.epochLen
  masterSecret : cfg.masterSecret.toList = keys.masterSecret.privateKey.toList
  serverSalt : cfg.serverSalt.toList = keys.serverSalt
  reality : cfg.reality = some
    { privateKey := some keys.reality.privateKey, publicKey := keys.reality.publicKey,
      shortIds := [keys.shortId], fingerprint := "chrome" }
  pool : cfg.masterList.entries.Perm defaultEntries

/-- The arguments that survive interpolation and the loader's checks. -/
structure Writable (toml : Parser) (args : InitArgs) : Prop where
  dest : Unescaped args.dest.toList
  epochLen : Unescaped args.epochLen.toList
  duration : ∃ length, parseDuration args.epochLen = .ok length
  activeK : 0 < args.activeK.toNat
  integer : toml.Represents args.activeK.toNat

section Loading

variable {base64 : Engine} {toml : Parser} {keys : Generated} {files : Files} {args : InitArgs}
  {text : String}

/-- The file ends with the document, the standard output with one more line. -/
theorem Produces.lines (produced : Produces base64 keys files args text) :
    ∃ blanks, text.toList = render (document base64 keys args ++ List.replicate blanks .blank) := by
  have rendered := renderConfig_toList base64 keys args
  unfold Produces run at produced
  generalize renderConfig base64 keys args = written at rendered produced
  obtain ⟨toml, pbk, sid⟩ := written
  dsimp only at rendered produced
  rcases produced with toFile | toStdout
  · obtain ⟨path, written⟩ := toFile
    split at written
    · contradiction
    · split at written
      · contradiction
      · split at written
        · contradiction
        · cases written
          exact ⟨0, by rw [List.replicate_zero, List.append_nil, rendered]⟩
  · obtain ⟨toStdout, printed, result, rfl⟩ := toStdout
    rw [if_pos toStdout] at result
    cases result
    refine ⟨1, ?_⟩
    rw [String.toList_append, rendered, render_append]
    rfl

theorem document_formed (lawful : base64.Lawful) (dest : Unescaped args.dest.toList)
    (epochLen : Unescaped args.epochLen.toList) (blanks : Nat) :
    ∀ line ∈ document base64 keys args ++ List.replicate blanks .blank, line.WellFormed := by
  intro line isIn
  simp only [document, afterDest, List.mem_append, List.mem_cons] at isIn
  rcases isIn with (secret | rfl | rfl | edge | rfl | tunnel | reality | pool) | blank
  · exact secretsLines_formed lawful line secret
  · exact epochLine_formed epochLen
  · exact kLine_formed
  · exact edgeLines_formed line edge
  · exact destLine_formed dest
  · exact tunnelLines_formed line tunnel
  · exact realityLines_formed lawful line reality
  · exact poolLines_formed line pool
  · rw [List.eq_of_mem_replicate blank]
    trivial

/-- The only integer of the document is `active_k`. -/
theorem document_integers (base64 : Engine) (keys : Generated) (args : InitArgs) (blanks : Nat) :
    (document base64 keys args ++ List.replicate blanks Line.blank).flatMap Line.integers =
      [args.activeK.toNat] := by
  have silent : (List.replicate blanks Line.blank).flatMap Line.integers = [] := by
    rw [List.flatMap_replicate]
    simp [Line.integers]
  rw [List.flatMap_append, silent]
  rfl

theorem meaning_blanks (blanks : Nat) :
    meaning (document base64 keys args ++ List.replicate blanks .blank) =
      some (rootTable base64 keys args) := by
  have silent : (List.replicate blanks Line.blank).filterMap Line.statement = [] := by
    simp [List.filterMap_replicate, Line.statement]
  rw [← meaning_document, meaning, List.filterMap_append, silent, List.append_nil]
  rfl

/-- The parser reads the text as the table written if it can hold `active_k`. -/
theorem parse_document (lawful : base64.Lawful) (conforms : toml.Conforms)
    (dest : Unescaped args.dest.toList) (epochLen : Unescaped args.epochLen.toList)
    {blanks : Nat} {table : Table} :
    toml.parse (render (document base64 keys args ++ List.replicate blanks .blank)) = .ok table ↔
      toml.Represents args.activeK.toNat ∧ rootTable base64 keys args = table := by
  rw [conforms.document _ _ (document_formed lawful dest epochLen blanks), meaning_blanks,
    Option.some.injEq]
  have integers := document_integers base64 keys args blanks
  refine and_congr_left' ⟨?_, ?_⟩
  · intro fits
    have isIn : args.activeK.toNat ∈
        (document base64 keys args ++ List.replicate blanks Line.blank).flatMap Line.integers := by
      rw [integers]
      exact List.mem_singleton_self _
    obtain ⟨line, isLine, isValue⟩ := List.mem_flatMap.mp isIn
    exact fits line isLine _ isValue
  · intro fits line isLine value isValue
    have isIn := List.mem_flatMap.mpr ⟨line, isLine, isValue⟩
    rw [integers, List.mem_singleton] at isIn
    rw [isIn]
    exact fits

theorem fromTomlStr_document (lawful : base64.Lawful) (conforms : toml.Conforms)
    (dest : Unescaped args.dest.toList) (epochLen : Unescaped args.epochLen.toList)
    (integer : toml.Represents args.activeK.toNat)
    (produced : Produces base64 keys files args text) :
    HydraConfig.fromTomlStr toml base64 text = (writtenConfig base64 keys args).intoConfig base64 := by
  obtain ⟨blanks, lines⟩ := produced.lines
  have parsed : toml.parse (render (document base64 keys args ++ List.replicate blanks .blank)) =
      .ok (rootTable base64 keys args) :=
    (parse_document lawful conforms dest epochLen).mpr ⟨integer, rfl⟩
  simp only [HydraConfig.fromTomlStr, lines, parsed, deserialize_rootTable]

theorem defaultEntries_acceptable : Acceptable defaultEntries where
  nonempty := by simp [defaultEntries, defaultPool]
  named := by
    intro e isIn
    obtain ⟨entry, isEntry, rfl⟩ := List.mem_map.mp isIn
    exact (defaultPool_rendered entry isEntry).named
  weighted := by
    intro e isIn
    obtain ⟨entry, isEntry, rfl⟩ := List.mem_map.mp isIn
    exact ⟨entry.2, rfl, (defaultPool_rendered entry isEntry).positive⟩
  distinct := by
    rw [defaultEntries, List.map_map]
    decide

theorem decodeKey_secretText (lawful : base64.Lawful) (field : String)
    (key : Vector UInt8 realityKeyLen) :
    decodeKey base64 field (String.ofList (secretText base64 key.toList)) = .ok key :=
  bind_ok_iff.mpr ⟨_, decodeB64_secretText lawful field key.toList, exactArray_ok_iff.mpr rfl⟩

theorem shortId_length : keys.shortId.length = 8 := by
  rw [Generated.shortId, List.length_take, Vector.length_toList]
  rfl

theorem serverSalt_length : keys.serverSalt.length = saltLen := by
  rw [Generated.serverSalt, List.length_take, Vector.length_toList]
  rfl

theorem decodeShortIds_hex : decodeShortIds 0 [hex keys.shortId] = .ok [keys.shortId] := by
  have short : ¬maxShortIdLen < keys.shortId.length := by
    rw [shortId_length]
    decide
  rw [decodeShortIds, decodeHex_hex]
  simp only [Except.mapError, bind, Except.bind, decodeShortIds, if_neg short]

theorem writtenReality_loads (lawful : base64.Lawful) :
    (writtenReality base64 keys).intoSettings base64 = .ok
      { privateKey := some keys.reality.privateKey, publicKey := keys.reality.publicKey,
        shortIds := [keys.shortId], fingerprint := "chrome" } := by
  rw [RawReality.intoSettings]
  refine bind_ok_iff.mpr ⟨_, decodeKey_secretText lawful _ _, ?_⟩
  refine bind_ok_iff.mpr ⟨some keys.reality.privateKey, ?_, ?_⟩
  · exact optionMapM_ok_iff.mpr (Option.Rel.some (decodeKey_secretText lawful _ _))
  · exact bind_ok_iff.mpr ⟨_, decodeShortIds_hex, rfl⟩

theorem writtenConfig_loads (lawful : base64.Lawful) (positive : 0 < args.activeK.toNat)
    {length : Duration} (duration : parseDuration args.epochLen = .ok length) :
    ∃ cfg, (writtenConfig base64 keys args).intoConfig base64 = .ok cfg ∧
      LoadsBack keys args cfg := by
  obtain ⟨master, listed⟩ := MasterList.exists_of_acceptable defaultEntries_acceptable
  have saltExact : keys.serverSalt.toArray.size = saltLen := serverSalt_length
  let cfg : HydraConfig :=
    { masterSecret := keys.masterSecret.privateKey, serverSalt := ⟨keys.serverSalt.toArray, saltExact⟩,
      epochLen := length, activeK := args.activeK.toNat, masterList := master,
      dest := some args.dest, coherenceCidrs := defaultCidrs,
      reality := some
        { privateKey := some keys.reality.privateKey, publicKey := keys.reality.publicKey,
          shortIds := [keys.shortId], fingerprint := "chrome" },
      serverAddr := none, certPin := none, activeK_pos := positive }
  have loads : (writtenConfig base64 keys args).Loads base64 cfg :=
    { format := rfl
      secret := decodeB64_secretText lawful _ _
      salt := decodeB64_secretText lawful _ _
      activeK := rfl
      epochLen := duration
      masterList := listed
      reality := Option.Rel.some (writtenReality_loads lawful)
      certPin := Option.Rel.none
      dest := rfl
      coherenceCidrs := rfl
      serverAddr := rfl }
  refine ⟨cfg, RawConfig.intoConfig_ok_iff.mpr loads, ?_⟩
  have shuffled : master.entries.Perm defaultEntries := by
    rw [((MasterList.new_ok_iff ..).mp listed).2]
    exact RealityHydra.Lib.ComparatorSort.sortBy_perm bySni defaultEntries
  exact ⟨rfl, rfl, duration, rfl, rfl, rfl, shuffled⟩

/-- A duration the loader does not know is written all the same. -/
theorem writtenConfig_rejected (lawful : base64.Lawful) (positive : 0 < args.activeK.toNat)
    {stop : Stop} (unknown : parseDuration args.epochLen = .error stop) :
    (writtenConfig base64 keys args).intoConfig base64 = .error stop := by
  have secret := decodeB64_secretText lawful "master_secret" keys.masterSecret.privateKey.toList
  have salt : decodeB64 base64 "server_salt" (writtenConfig base64 keys args).serverSalt =
      .ok (⟨keys.serverSalt.toArray, serverSalt_length⟩ : Vector UInt8 saltLen).toList :=
    decodeB64_secretText lawful "server_salt" keys.serverSalt
  exact RawConfig.intoConfig_of_duration rfl secret salt (Nat.ne_of_gt positive) unknown

theorem Produces.file (toFile : args.stdout = false)
    (fresh : (files.pathExists args.output && !args.force) = false)
    (writes : files.write args.output (renderConfig base64 keys args).1 = .ok ()) :
    Produces base64 keys files args (renderConfig base64 keys args).1 := by
  unfold Produces run
  generalize renderConfig base64 keys args = written at writes ⊢
  obtain ⟨toml, pbk, sid⟩ := written
  dsimp only at writes ⊢
  refine Or.inl ⟨args.output, ?_⟩
  rw [toFile, fresh, writes]
  rfl

end Loading

/-! ## What the arguments were

From a text that loads back to the arguments written into it. -/

section Quotes

variable {base64 : Engine} {keys : Generated} {args : InitArgs}

theorem tunnelLines_quotes : ∀ line ∈ tunnelLines, line.quotes ≤ 2 := by
  unfold tunnelLines
  repeat rw [String.toList_ofList]
  decide

theorem realityLines_quotes : ∀ line ∈ realityLines base64 keys, line.quotes ≤ 2 := by
  unfold realityLines plainEntry
  repeat rw [String.toList_ofList]
  simp only [List.forall_mem_cons, List.not_mem_nil, false_imp_iff, implies_true, and_true,
    Line.quotes]
  decide

theorem poolLines_quotes : ∀ line ∈ poolLines, line.quotes ≤ 2 := by
  intro line isIn
  obtain ⟨entry, _, isLine⟩ := List.mem_flatMap.mp isIn
  simp only [List.mem_cons, List.not_mem_nil, or_false] at isLine
  rcases isLine with rfl | rfl | rfl | rfl
  · exact Nat.zero_le 2
  · exact Nat.le_refl 2
  · exact Nat.le_refl 2
  · exact Nat.zero_le 2

/-- After `dest`, no string over several lines can close. -/
theorem afterDest_no_tripleQuote (lawful : base64.Lawful) (blanks : Nat) :
    ¬tripleQuote <:+: render (.blank :: (afterDest base64 keys ++ List.replicate blanks .blank)) := by
  intro within
  obtain ⟨written, isWritten, found⟩ :=
    infix_flatMap_append (by decide) (by decide) within
  obtain ⟨line, isLine, isOfLine⟩ := List.mem_flatMap.mp isWritten
  have atLeast : 3 ≤ written.count '"' := found.sublist.count_le '"'
  have few : line.WellFormed ∧ line.quotes ≤ 2 := by
    simp only [afterDest, List.mem_append, List.mem_cons] at isLine
    rcases isLine with rfl | (tunnel | reality | pool) | blank
    · exact ⟨trivial, by decide⟩
    · exact ⟨tunnelLines_formed line tunnel, tunnelLines_quotes line tunnel⟩
    · exact ⟨realityLines_formed lawful line reality, realityLines_quotes line reality⟩
    · exact ⟨poolLines_formed line pool, poolLines_quotes line pool⟩
    · rw [List.eq_of_mem_replicate blank]
      exact ⟨trivial, by decide⟩
  have atMost := Line.count_quote_le few.1 written isOfLine
  exact absurd (atLeast.trans (atMost.trans few.2)) (by decide)

end Quotes

section Arguments

variable {base64 : Engine} {toml : Parser} {keys : Generated} {files : Files} {args : InitArgs}
  {text : String} {blanks : Nat} {table : Table}

def beforeDest (base64 : Engine) (keys : Generated) (args : InitArgs) : List Line :=
  secretsLines base64 keys ++ epochLine args :: kLine args :: edgeLines

theorem render_at_epoch (more : List Line) :
    ∃ rest, render (document base64 keys args ++ more) =
      render (secretsLines base64 keys) ++ (entryFront "epoch_len".toList 5 ++
        '"' :: (args.epochLen.toList ++ '"' :: rest)) := by
  refine ⟨'\n' :: render (kLine args :: (edgeLines ++ destLine args :: afterDest base64 keys) ++
    more), ?_⟩
  rw [document, List.append_assoc, render_append, epochLine, plainEntry, List.cons_append,
    render_string]
  rfl

theorem render_at_dest (more : List Line) :
    render (document base64 keys args ++ more) =
      render (beforeDest base64 keys args) ++ (entryFront "dest".toList 12 ++
        '"' :: (args.dest.toList ++ '"' :: render (.blank :: (afterDest base64 keys ++ more)))) := by
  have split : document base64 keys args ++ more =
      beforeDest base64 keys args ++ destLine args :: (afterDest base64 keys ++ more) := by
    simp [document, beforeDest]
  rw [split, render_append, destLine, plainEntry, render_string, render_blank]
  rfl

theorem secretsLines_root : ∀ line ∈ secretsLines base64 keys, line.IsRoot := by
  unfold secretsLines plainEntry
  simp only [List.forall_mem_cons, List.not_mem_nil, false_imp_iff, implies_true, Line.IsRoot,
    and_self]

theorem edgeLines_root : ∀ line ∈ edgeLines, line.IsRoot := by
  unfold edgeLines
  simp only [List.forall_mem_cons, List.not_mem_nil, false_imp_iff, implies_true, Line.IsRoot,
    and_self]

theorem beforeDest_formed (lawful : base64.Lawful) (epochLen : Unescaped args.epochLen.toList) :
    ∀ line ∈ beforeDest base64 keys args, line.WellFormed ∧ line.IsRoot := by
  intro line isIn
  simp only [beforeDest, List.mem_append, List.mem_cons] at isIn
  rcases isIn with secret | rfl | rfl | edge
  · exact ⟨secretsLines_formed lawful line secret, secretsLines_root line secret⟩
  · exact ⟨epochLine_formed epochLen, trivial⟩
  · exact ⟨kLine_formed, trivial⟩
  · exact ⟨edgeLines_formed line edge, edgeLines_root line edge⟩

theorem bare_of_durationChar {c : Char} (isDuration : DurationChar c) : c ≠ '"' ∧ c ≠ '\\' := by
  refine ⟨?_, ?_⟩
  · rintro rfl
    simp [DurationChar, isWhitespace, decimalDigit] at isDuration
  · rintro rfl
    simp [DurationChar, isWhitespace, decimalDigit] at isDuration

/-- A duration has no quotes and no backslashes, so a parser that gets past it has
met every character of it. -/
theorem epochLen_unescaped (lawful : base64.Lawful) (conforms : toml.Conforms)
    {length : Duration} (duration : parseDuration args.epochLen = .ok length)
    (parsed : toml.parse (render (document base64 keys args ++ List.replicate blanks .blank)) =
      .ok table) : Unescaped args.epochLen.toList := by
  obtain ⟨nonempty, chars⟩ := parseDuration_chars duration
  have bare := fun c isIn => bare_of_durationChar (chars c isIn)
  obtain ⟨rest, atEpoch⟩ := render_at_epoch (List.replicate blanks Line.blank)
  rw [atEpoch] at parsed
  have opens : ¬['"', '"'] <+: args.epochLen.toList ++ '"' :: rest := by
    intro starts
    cases isEmpty : args.epochLen.toList with
    | nil => exact nonempty isEmpty
    | cons c others =>
        rw [isEmpty, List.cons_append] at starts
        have isQuote := (List.cons_prefix_cons.mp starts).1
        exact (bare c (isEmpty ▸ List.mem_cons_self)).1 isQuote.symm
  have formed : ∀ line ∈ secretsLines base64 keys, line.WellFormed ∧ line.IsRoot :=
    fun line isIn => ⟨secretsLines_formed lawful line isIn, secretsLines_root line isIn⟩
  obtain ⟨_, _, read, _⟩ :=
    conforms.basic _ _ 5 _ _ formed (by decide) opens parsed
  exact unescaped_of_scan bare read

theorem dest_unescaped (lawful : base64.Lawful) (conforms : toml.Conforms)
    (epochLen : Unescaped args.epochLen.toList)
    (parsed : toml.parse (render (document base64 keys args ++ List.replicate blanks .blank)) =
      .ok table)
    (held : ∀ found, table.lookup "dest".toList = some (.string found) → found = args.dest.toList) :
    Unescaped args.dest.toList := by
  have formed : ∀ line ∈ beforeDest base64 keys args, line.WellFormed ∧ line.IsRoot :=
    beforeDest_formed lawful epochLen
  have noTriple : ¬tripleQuote <:+:
      render (.blank :: (afterDest base64 keys ++ List.replicate blanks .blank)) :=
    afterDest_no_tripleQuote lawful blanks
  rw [render_at_dest] at parsed
  generalize isRest : render (.blank :: (afterDest base64 keys ++ List.replicate blanks .blank)) =
    rest at parsed noTriple
  by_cases starts : ['"', '"'] <+: args.dest.toList ++ '"' :: rest
  · obtain ⟨body, same⟩ := starts
    rw [← same] at parsed
    obtain ⟨inner, after, found, isBody, short, isDest⟩ :=
      conforms.multiLine _ _ 12 body _ formed (by decide) parsed
    rw [held found isDest] at short
    rw [isBody] at same
    exact absurd (tripleQuote_after same short) noTriple
  · obtain ⟨found, after, read, isDest⟩ :=
      conforms.basic _ _ 12 _ _ formed (by decide) starts parsed
    rw [held found isDest, ← isRest, render_blank] at read
    exact unescaped_of_scan_self _ read

end Arguments

theorem init_text_loads_back_iff (base64 : Engine) (lawful : base64.Lawful) (toml : Parser)
    (conforms : toml.Conforms) (keys : Generated) (files : Files) (args : InitArgs) (text : String)
    (produced : Produces base64 keys files args text) :
    (∃ cfg, HydraConfig.fromTomlStr toml base64 text = .ok cfg ∧ LoadsBack keys args cfg) ↔
      Writable toml args := by
  refine ⟨?_, ?_⟩
  · intro loaded
    obtain ⟨cfg, loaded, back⟩ := loaded
    obtain ⟨blanks, lines⟩ := produced.lines
    obtain ⟨table, raw, parsed, read, loads⟩ := HydraConfig.fromTomlStr_ok_iff.mp loaded
    rw [lines] at parsed
    have epochLen := epochLen_unescaped lawful conforms back.epochLen parsed
    have dest : Unescaped args.dest.toList := by
      apply dest_unescaped lawful conforms epochLen parsed
      intro found held
      have named := RawConfig.deserialize_dest read held
      rw [← loads.dest, back.dest] at named
      rw [Option.some.inj named, String.toList_ofList]
    have fits := ((parse_document lawful conforms dest epochLen).mp parsed).1
    refine ⟨dest, epochLen, ⟨cfg.epochLen, back.epochLen⟩, ?_, fits⟩
    rw [← back.activeK]
    exact cfg.activeK_pos
  · intro writable
    obtain ⟨length, duration⟩ := writable.duration
    rw [fromTomlStr_document lawful conforms writable.dest writable.epochLen writable.integer
      produced]
    exact writtenConfig_loads lawful writable.activeK duration

/-! ### Two runs -/

def defaultArgs : InitArgs where
  output := "hydra.toml"
  force := false
  dest := "www.cloudflare.com:443"
  activeK := 6
  epochLen := "6h"
  stdout := false

def zeroPair : Keypair := ⟨Vector.replicate _ 0, Vector.replicate _ 0⟩

def zeroKeys : Generated := ⟨zeroPair, zeroPair, zeroPair, zeroPair⟩

def emptyDirectory : Files := ⟨fun _ => false, fun _ _ => .ok ()⟩

theorem default_arguments_load_back :
    ∃ text, Produces standard zeroKeys emptyDirectory defaultArgs text ∧
      ∃ cfg, HydraConfig.fromTomlStr reader standard text = .ok cfg ∧
        LoadsBack zeroKeys defaultArgs cfg := by
  have produced : Produces standard zeroKeys emptyDirectory defaultArgs
      (renderConfig standard zeroKeys defaultArgs).1 := Produces.file rfl rfl rfl
  have represented : reader.Represents defaultArgs.activeK.toNat :=
    reader_conforms.represents _ (by decide)
  have writable : Writable reader defaultArgs :=
    ⟨by decide, by decide, ⟨⟨21600, 0⟩, by decide⟩, by decide,
      represented⟩
  exact ⟨_, produced, (init_text_loads_back_iff standard standard_lawful reader reader_conforms
    zeroKeys emptyDirectory defaultArgs _ produced).mpr writable⟩

/-- `--epoch-len 6d`. -/
def unknownUnitArgs : InitArgs := { defaultArgs with epochLen := "6d" }

theorem unknown_unit_written_not_loaded :
    ∃ text, Produces standard zeroKeys emptyDirectory unknownUnitArgs text ∧
      HydraConfig.fromTomlStr reader standard text =
        .error (.rejected (.badDuration "6d")) := by
  have produced : Produces standard zeroKeys emptyDirectory unknownUnitArgs
      (renderConfig standard zeroKeys unknownUnitArgs).1 := Produces.file rfl rfl rfl
  have represented : reader.Represents unknownUnitArgs.activeK.toNat :=
    reader_conforms.represents _ (by decide)
  refine ⟨_, produced, ?_⟩
  rw [fromTomlStr_document standard_lawful reader_conforms (by decide) (by decide)
    represented produced]
  exact writtenConfig_rejected standard_lawful (by decide) (by decide)

end RealityHydra.HydraCli
