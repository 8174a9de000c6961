import RealityHydra.Setup.Summary

/-!
# Configuring a client by hand

The script generates a configuration of its own with `hydra init` and puts the
four values of the server's summary in place of the generated ones, with `sed`.
What is not among the four stays as `init` writes it.
-/

set_option autoImplicit false

namespace RealityHydra.Setup

open RealityHydra.Lib.Base64
open RealityHydra.Lib.ByteCodec
open RealityHydra.Lib.LineEditing
open RealityHydra.Lib.Text
open RealityHydra.Lib.Toml
open RealityHydra.Lib.TomlGrammar (Grammar isSpace)
open RealityHydra.Lib.Traversal
open RealityHydra.HydraCli
open RealityHydra.PoolEngine

/-! ## The script -/

/-- What is typed at the prompts; of the port, what `${p:-$PORT}` makes of it. -/
structure ManualAnswers where
  addr : List Char
  p : List Char
  secret : List Char
  salt : List Char
  pbk : List Char
  sid : List Char
  deriving DecidableEq, Repr

/-- Why no configuration is written. -/
inductive ManualStop where
  | missingValue
  /-- A value that `sed` would not put in place as it stands. -/
  | notLiteral
  deriving DecidableEq, Repr

def scheme : List Char := "base64:".toList

/-- `case "$secret" in base64:*) : ;; *) secret="base64:$secret" ;; esac`. -/
def withScheme (value : List Char) : List Char :=
  if scheme.isPrefixOf value then value else scheme ++ value

/-- `case "$pbk" in base64:*) pbk="${pbk#base64:}" ;; esac`. -/
def withoutScheme (value : List Char) : List Char := (value.dropPrefix? scheme).getD value

/-- In a replacement between bars, `&`, backslashes and bars have a meaning. -/
def isLiteral (c : Char) : Bool := c ≠ '&' && c ≠ '\\' && c ≠ '|' && c ≠ '\n'

/-- `s|^key .*|replacement|`. -/
def substitute (key replacement line : List Char) : List Char :=
  if (key ++ [' ']).isPrefixOf line then replacement else line

/-- `s|^([[:space:]]*)key .*|\1replacement|`. -/
def substituteIndented (key replacement line : List Char) : List Char :=
  if (key ++ [' ']).isPrefixOf (line.dropWhile isSpace) then
    line.takeWhile isSpace ++ replacement
  else line

/-- The values as they go into the script of `sed`. -/
structure Rewrite where
  secret : List Char
  salt : List Char
  pbk : List Char
  sid : List Char

def Rewrite.edit (values : Rewrite) (line : List Char) : Option (List Char) :=
  let line := substitute "master_secret".toList
    ("master_secret = \"".toList ++ values.secret ++ ['"']) line
  let line := substitute "server_salt".toList
    ("server_salt   = \"".toList ++ values.salt ++ ['"']) line
  let line := substituteIndented "public_key".toList
    ("public_key  = \"".toList ++ values.pbk ++ ['"']) line
  let line := substituteIndented "short_ids".toList
    ("short_ids   = [\"".toList ++ values.sid ++ ['"', ']']) line
  if startsPrivateKey line then none else some line

/-- `hydra init --output "$tmp" --dest "$addr:$p" --force`. -/
def manualInit (dest : List Char) : InitArgs :=
  { defaultArgs with force := true, dest := String.ofList dest }

def ManualAnswers.dest (answers : ManualAnswers) : List Char := answers.addr ++ ':' :: answers.p

def ManualAnswers.rewrite (answers : ManualAnswers) : Rewrite where
  secret := withScheme answers.secret
  salt := withScheme answers.salt
  pbk := withoutScheme answers.pbk
  sid := answers.sid

/-- The file the script leaves. -/
def clientManual (base64 : Engine) (keys : Generated) (answers : ManualAnswers) :
    Except ManualStop (List Char) :=
  let values := answers.rewrite
  if answers.addr = [] ∨ answers.secret = [] ∨ answers.salt = [] ∨ answers.pbk = [] then
    .error .missingValue
  else if !(values.secret ++ values.salt ++ values.pbk ++ values.sid).all isLiteral then
    .error .notLiteral
  else
    let tmp := (renderConfig base64 keys (manualInit answers.dest)).1.toList
    .ok (Grammar.unlines ((fileLines tmp).filterMap values.edit))

/-- The answers of someone who copies the server's summary. -/
def ServerSummary.answers (summary : ServerSummary) (addr p : List Char) : ManualAnswers where
  addr := addr
  p := p
  secret := summary.secret
  salt := summary.salt
  pbk := summary.pbk
  sid := summary.sid

/-! ## What the edit does to a line -/

section Lines

variable {key line : List Char} (replacement : List Char)

theorem within_of_begins (bare : BareKey key)
    (within : (key ++ [' ']).isPrefixOf line = true) : begins key line = true := by
  obtain ⟨rest, rfl⟩ := List.isPrefixOf_iff_prefix.mp within
  rw [begins, List.append_assoc, dropWhile_bare bare, List.isPrefixOf_iff_prefix]
  exact List.prefix_append ..

theorem substitute_of_not_begins (bare : BareKey key) (other : begins key line = false) :
    substitute key replacement line = line := by
  refine if_neg ?_
  intro within
  rw [within_of_begins bare within] at other
  contradiction

theorem substituteIndented_of_not_begins (other : begins key line = false) :
    substituteIndented key replacement line = line := by
  refine if_neg ?_
  intro within
  have isBegun : begins key line = true := by
    rw [begins, List.isPrefixOf_iff_prefix]
    exact (List.prefix_append key [' ']).trans (List.isPrefixOf_iff_prefix.mp within)
  rw [isBegun] at other
  contradiction

theorem entryFront_begins (key : List Char) (pad : Nat) (rest : List Char) :
    (key ++ [' ']).isPrefixOf (entryFront key (pad + 1) ++ rest) = true := by
  rw [List.isPrefixOf_iff_prefix]
  refine ⟨List.replicate pad ' ' ++ ['=', ' '] ++ rest, ?_⟩
  simp [entryFront, List.replicate_succ]

theorem substitute_entry (pad : Nat) (rest : List Char) :
    substitute key replacement (entryFront key (pad + 1) ++ rest) = replacement :=
  if_pos (entryFront_begins key pad rest)

theorem substituteIndented_entry (bare : BareKey key) (pad : Nat) (rest : List Char) :
    substituteIndented key replacement (entryFront key (pad + 1) ++ rest) = replacement := by
  obtain ⟨c, others, front, -⟩ := entryFront_eq key (pad + 1)
  have unindented : (entryFront key (pad + 1) ++ rest).dropWhile isSpace =
      entryFront key (pad + 1) ++ rest := by
    rw [front, List.append_assoc, dropWhile_bare bare]
  have nothing : (entryFront key (pad + 1) ++ rest).takeWhile isSpace = [] := by
    have whole := List.takeWhile_append_dropWhile (p := isSpace) (l := entryFront key (pad + 1) ++ rest)
    rw [unindented] at whole
    exact List.append_left_eq_self.mp whole
  rw [substituteIndented, unindented, if_pos (entryFront_begins key pad rest), nothing,
    List.nil_append]

end Lines

/-- The keys whose lines are edited. -/
def editedKeys : List (List Char) :=
  ["master_secret".toList, "server_salt".toList, "public_key".toList, "short_ids".toList,
    privateKeyName]

theorem editedKeys_bare : ∀ key ∈ editedKeys, BareKey key := by decide +kernel

theorem edit_of_not_begins (values : Rewrite) {line : List Char}
    (other : ∀ key ∈ editedKeys, begins key line = false) : values.edit line = some line := by
  have bare := editedKeys_bare
  simp only [editedKeys, List.forall_mem_cons] at other bare
  obtain ⟨secret, salt, pbk, sid, private_, -⟩ := other
  rw [Rewrite.edit, substitute_of_not_begins _ bare.1 secret,
    substitute_of_not_begins _ bare.2.1 salt, substituteIndented_of_not_begins _ pbk,
    substituteIndented_of_not_begins _ sid]
  exact if_neg (Bool.eq_false_iff.mp private_)

/-! ### One substitution after another -/

/-- A substitution for the line of a key, which may be indented. -/
structure Substitution where
  key : List Char
  replacement : List Char
  indented : Bool

def Substitution.apply (line : List Char) (substitution : Substitution) : List Char :=
  if substitution.indented then
    substituteIndented substitution.key substitution.replacement line
  else substitute substitution.key substitution.replacement line

def Rewrite.substitutions (values : Rewrite) : List Substitution :=
  [⟨"master_secret".toList, entryFront "master_secret".toList 1 ++ quoted values.secret, false⟩,
    ⟨"server_salt".toList, entryFront "server_salt".toList 3 ++ quoted values.salt, false⟩,
    ⟨"public_key".toList, entryFront "public_key".toList 2 ++ quoted values.pbk, true⟩,
    ⟨"short_ids".toList,
      entryFront "short_ids".toList 3 ++ '[' :: (quoted values.sid ++ [']']), true⟩]

theorem edit_eq (values : Rewrite) (line : List Char) :
    values.edit line =
      if startsPrivateKey (values.substitutions.foldl Substitution.apply line) then none
      else some (values.substitutions.foldl Substitution.apply line) := by
  have shortIds : "short_ids   = [\"".toList ++ values.sid ++ ['"', ']'] =
      entryFront "short_ids".toList 3 ++ '[' :: (quoted values.sid ++ [']']) := by
    simp [entryFront, quoted, List.replicate_succ]
  rw [Rewrite.edit, shortIds]
  rfl

theorem editedKeys_distinct : ∀ key ∈ editedKeys, ∀ name ∈ editedKeys, key ≠ name →
    key.isPrefixOf name = false := by decide +kernel

section Entries

variable {name : List Char} (isName : name ∈ editedKeys) (pad : Nat) (rest : List Char)

include isName

/-- A pattern for another key passes over an entry. -/
theorem begins_other {key : List Char} (isKey : key ∈ editedKeys) (other : key ≠ name) :
    begins key (entryFront name pad ++ rest) = false := by
  rw [begins_entryFront (editedKeys_bare key isKey) (editedKeys_bare name isName),
    editedKeys_distinct key isKey name isName other]

theorem apply_other {substitution : Substitution} (isKey : substitution.key ∈ editedKeys)
    (other : substitution.key ≠ name) :
    substitution.apply (entryFront name pad ++ rest) = entryFront name pad ++ rest := by
  have passes := begins_other isName pad rest isKey other
  rw [Substitution.apply, substituteIndented_of_not_begins _ passes,
    substitute_of_not_begins _ (editedKeys_bare _ isKey) passes, ite_self]

theorem foldl_other {substitutions : List Substitution}
    (keys : ∀ substitution ∈ substitutions, substitution.key ∈ editedKeys)
    (others : ∀ substitution ∈ substitutions, substitution.key ≠ name) :
    substitutions.foldl Substitution.apply (entryFront name pad ++ rest) =
      entryFront name pad ++ rest := by
  induction substitutions with
  | nil => rfl
  | cons first later ih =>
      obtain ⟨firstKey, laterKeys⟩ := List.forall_mem_cons.mp keys
      obtain ⟨firstOther, laterOthers⟩ := List.forall_mem_cons.mp others
      rw [List.foldl_cons, apply_other isName pad rest firstKey firstOther]
      exact ih laterKeys laterOthers

end Entries

theorem apply_entry {substitution : Substitution} (isKey : substitution.key ∈ editedKeys)
    (pad : Nat) (rest : List Char) :
    substitution.apply (entryFront substitution.key (pad + 1) ++ rest) =
      substitution.replacement := by
  rw [Substitution.apply, substituteIndented_entry _ (editedKeys_bare _ isKey),
    substitute_entry, ite_self]

/-- Of several substitutions, each for a key of its own, an entry meets one. -/
theorem foldl_entry {substitutions : List Substitution} {substitution : Substitution}
    (isIn : substitution ∈ substitutions)
    (keys : ∀ other ∈ substitutions, other.key ∈ editedKeys)
    (distinct : substitutions.Pairwise fun first second => first.key ≠ second.key)
    {newPad : Nat} {more : List Char}
    (isEntry : substitution.replacement = entryFront substitution.key newPad ++ more) (pad : Nat)
    (rest : List Char) :
    substitutions.foldl Substitution.apply (entryFront substitution.key (pad + 1) ++ rest) =
      substitution.replacement := by
  have isKey := keys substitution isIn
  induction substitutions with
  | nil => exact absurd isIn List.not_mem_nil
  | cons first later ih =>
      obtain ⟨firstKey, laterKeys⟩ := List.forall_mem_cons.mp keys
      obtain ⟨unlike, laterDistinct⟩ := List.pairwise_cons.mp distinct
      rw [List.foldl_cons]
      rcases List.mem_cons.mp isIn with rfl | isLater
      · rw [apply_entry isKey, isEntry]
        exact foldl_other isKey newPad more laterKeys fun other isOther =>
          (unlike other isOther).symm
      · rw [apply_other isKey (pad + 1) rest firstKey (unlike substitution isLater)]
        exact ih isLater laterKeys laterDistinct

section Edited

variable (values : Rewrite) (rest : List Char)

theorem substitutions_keys :
    ∀ substitution ∈ values.substitutions, substitution.key ∈ editedKeys := by
  simp only [Rewrite.substitutions, List.forall_mem_cons]
  exact ⟨by decide, by decide, by decide, by decide, nofun⟩

theorem substitutions_distinct :
    values.substitutions.Pairwise fun first second => first.key ≠ second.key := by
  have names : ["master_secret".toList, "server_salt".toList, "public_key".toList,
      "short_ids".toList].Pairwise (· ≠ ·) := by decide
  exact List.pairwise_map.mp (names : (values.substitutions.map Substitution.key).Pairwise (· ≠ ·))

theorem substitutions_not_private :
    ∀ substitution ∈ values.substitutions, substitution.key ≠ privateKeyName := by
  simp only [Rewrite.substitutions, List.forall_mem_cons]
  exact ⟨by decide, by decide, by decide, by decide, nofun⟩

/-- The line of a key that is looked for becomes its replacement. -/
theorem edit_entry {substitution : Substitution} (isIn : substitution ∈ values.substitutions)
    {newPad : Nat} {more : List Char}
    (isEntry : substitution.replacement = entryFront substitution.key newPad ++ more) (pad : Nat) :
    values.edit (entryFront substitution.key (pad + 1) ++ rest) =
      some substitution.replacement := by
  have isKey := substitutions_keys values substitution isIn
  have left : startsPrivateKey substitution.replacement = false := by
    rw [isEntry]
    exact begins_other isKey newPad more (by decide)
      (substitutions_not_private values substitution isIn).symm
  rw [edit_eq, foldl_entry isIn (substitutions_keys values) (substitutions_distinct values) isEntry,
    left]
  rfl

theorem edit_secret : values.edit (entryFront "master_secret".toList 1 ++ rest) =
    some (entryFront "master_secret".toList 1 ++ quoted values.secret) :=
  edit_entry values rest List.mem_cons_self rfl 0

theorem edit_salt : values.edit (entryFront "server_salt".toList 3 ++ rest) =
    some (entryFront "server_salt".toList 3 ++ quoted values.salt) :=
  edit_entry values rest (List.mem_cons_of_mem _ List.mem_cons_self) rfl 2

theorem edit_pbk : values.edit (entryFront "public_key".toList 2 ++ rest) =
    some (entryFront "public_key".toList 2 ++ quoted values.pbk) := by
  have isIn : ⟨"public_key".toList, entryFront "public_key".toList 2 ++ quoted values.pbk, true⟩ ∈
      values.substitutions := by simp [Rewrite.substitutions]
  exact edit_entry values rest isIn rfl 1

theorem edit_sid : values.edit (entryFront "short_ids".toList 3 ++ rest) =
    some (entryFront "short_ids".toList 3 ++ '[' :: (quoted values.sid ++ [']'])) := by
  have isIn : ⟨"short_ids".toList, entryFront "short_ids".toList 3 ++
      '[' :: (quoted values.sid ++ [']']), true⟩ ∈ values.substitutions := by
    simp [Rewrite.substitutions]
  exact edit_entry values rest isIn rfl 2

theorem edit_private (pad : Nat) : values.edit (entryFront privateKeyName pad ++ rest) = none := by
  have bare := privateKeyName_bare
  have begun : startsPrivateKey (entryFront privateKeyName pad ++ rest) = true := by
    have met := begins_entryFront bare bare pad rest
    rw [List.isPrefixOf_iff_prefix.mpr (List.prefix_refl privateKeyName)] at met
    exact met
  rw [edit_eq, foldl_other (by decide) pad rest (substitutions_keys values)
    (substitutions_not_private values), begun]
  rfl

/-- No entry of the stretch is under a key that is edited. -/
def Unedited (stretch : List Line) : Prop :=
  (editedKeys.all fun key => stretch.all fun line => !mentions key line) = true

theorem edit_kept {stretch : List Line} (formed : ∀ line ∈ stretch, line.WellFormed)
    (unedited : Unedited stretch) (more : List Line) :
    ((stretch ++ more).flatMap Line.lines).filterMap values.edit =
      stretch.flatMap Line.lines ++ (more.flatMap Line.lines).filterMap values.edit := by
  rw [List.flatMap_append, List.filterMap_append]
  congr 1
  apply filterMap_kept
  intro line isIn written isWritten
  apply edit_of_not_begins
  intro key isKey
  have unmentioned : Unmentioned key stretch := List.all_eq_true.mp unedited key isKey
  exact begins_of_not_mentions (editedKeys_bare key isKey) (formed line isIn)
    (unmentioned.silent line isIn) written isWritten

end Edited

/-! ## What the edit does to the file -/

section File

variable (base64 : Engine) (keys : Generated) (args : InitArgs) (values : Rewrite)

def manualDocument : List Line :=
  (secretsLines base64 keys).take 3 ++
    .entry "master_secret".toList 1 (.string values.secret) none ::
    .entry "server_salt".toList 3 (.string values.salt) none ::
    ((secretsLines base64 keys).drop 5 ++ (beforeKeys args ++
      ((realityLines base64 keys).take 2 ++
        .entry "public_key".toList 2 (.string values.pbk) none ::
        .entry "short_ids".toList 3 (.single values.sid) none ::
        ((realityLines base64 keys).drop 5 ++ poolLines))))

variable {base64 keys args}

/-- An entry on one line that is edited, or deleted. -/
theorem filterMap_entry {key body : List Char} {pad : Nat} {literal : Literal}
    {note : Option Note} {edited : Option (List Char)}
    (single : (Line.entry key pad literal note).lines = [entryFront key pad ++ body])
    (isEdited : values.edit (entryFront key pad ++ body) = edited) (more : List Line) :
    ((Line.entry key pad literal note :: more).flatMap Line.lines).filterMap values.edit =
      edited.toList ++ (more.flatMap Line.lines).filterMap values.edit := by
  rw [List.flatMap_cons, single, List.singleton_append, List.filterMap_cons, isEdited]
  cases edited <;> rfl

theorem edited_document (lawful : base64.Lawful) (dest : Unescaped args.dest.toList)
    (epochLen : Unescaped args.epochLen.toList) :
    ((document base64 keys args).flatMap Line.lines).filterMap values.edit =
      (manualDocument base64 keys args values).flatMap Line.lines := by
  obtain ⟨secrets, settings, reality, pool⟩ :=
    @stretches_formed base64 keys args lawful dest epochLen
  have split : document base64 keys args = (secretsLines base64 keys).take 3 ++
      .entry "master_secret".toList 1 (.string _) _ :: .entry "server_salt".toList 3 (.string _) _ ::
      ((secretsLines base64 keys).drop 5 ++ (beforeKeys args ++
        ((realityLines base64 keys).take 2 ++ .entry privateKeyName 1 (.string _) _ ::
          .entry "public_key".toList 2 (.string _) _ :: .entry "short_ids".toList 3 (.single _) _ ::
          ((realityLines base64 keys).drop 5 ++ poolLines)))) := document_split base64 keys args
  have comments : Unedited ((secretsLines base64 keys).take 3) := rfl
  have format : Unedited ((secretsLines base64 keys).drop 5) := rfl
  have network : Unedited (beforeKeys args) := rfl
  have heading : Unedited ((realityLines base64 keys).take 2) := rfl
  have fingerprint : Unedited ((realityLines base64 keys).drop 5) := rfl
  have entries : Unedited poolLines := rfl
  rw [split, edit_kept values (fun line isIn => secrets line (List.mem_of_mem_take isIn)) comments,
    filterMap_entry values rfl (edit_secret values _),
    filterMap_entry values rfl (edit_salt values _),
    edit_kept values (fun line isIn => secrets line (List.mem_of_mem_drop isIn)) format,
    edit_kept values settings network,
    edit_kept values (fun line isIn => reality line (List.mem_of_mem_take isIn)) heading,
    filterMap_entry values rfl (edit_private values _ 1),
    filterMap_entry values rfl (edit_pbk values _), filterMap_entry values rfl (edit_sid values _),
    edit_kept values (fun line isIn => reality line (List.mem_of_mem_drop isIn)) fingerprint]
  have last := edit_kept values pool entries []
  rw [List.append_nil] at last
  rw [last]
  simp [manualDocument, Line.lines, Literal.lines, noteChars_none]

end File

/-! ## What the file means -/

/-- The document of a root table with one table and one array of tables. -/
theorem meaning_of_sections {document : List Line} {root inner : Table} {name array : List Char}
    {tables : List Table}
    (statements : document.filterMap Line.statement =
      sets root ++ (.opens (.table name) :: sets inner ++ elements array tables))
    (distinctRoot : Distinct root) (distinctInner : Distinct inner)
    (distinctTables : ∀ entries ∈ tables, Distinct entries) (nonempty : tables ≠ [])
    (absentName : name ∉ root.map Prod.fst)
    (absentArray : array ∉ (root ++ [(name, Value.table inner)]).map Prod.fst) :
    meaning document =
      some (root ++ [(name, .table inner)] ++ [(array, .array (tables.map .table))]) := by
  have rootRan : (sets root).foldlM Draft.step .start = some ⟨[], none, root⟩ :=
    run_sets distinctRoot
  have rootClosed : Draft.close ⟨[], none, root⟩ = some root := rfl
  have innerRan := run_section (.table name) rootClosed distinctInner
  have innerClosed : Draft.close ⟨root, some (.table name), inner⟩ =
      some (root ++ [(name, .table inner)]) := insertKey_of_absent _ absentName
  obtain ⟨later, arrayRan, arrayClosed⟩ := run_array nonempty innerClosed absentArray distinctTables
  have sectionsRan : (Statement.opens (.table name) :: sets inner ++
      elements array tables).foldlM Draft.step ⟨[], none, root⟩ = some later := by
    rw [List.foldlM_append, innerRan, Option.bind_eq_bind, Option.bind_some, arrayRan]
  rw [meaning, statements, execute, List.foldlM_append, rootRan, Option.bind_eq_bind, Option.bind_some,
    sectionsRan, Option.bind_some, arrayClosed]

section Meaning

variable (base64 : Engine) (keys : Generated) (args : InitArgs) (values : Rewrite)

def manualNetwork : Table :=
  ("master_secret".toList, .string values.secret) :: ("server_salt".toList, .string values.salt) ::
    (networkTable base64 keys args).drop 2

def manualReality : Table :=
  [("public_key".toList, .string values.pbk), ("short_ids".toList, .array [.string values.sid]),
    ("fingerprint".toList, .string "chrome".toList)]

def manualTable : Table :=
  manualNetwork base64 keys args values ++ [("reality".toList, .table (manualReality values))] ++
    [("pool".toList, .array ((defaultPool.map poolTable).map .table))]

theorem manualNetwork_keys :
    (manualNetwork base64 keys args values).map Prod.fst =
      ["master_secret", "server_salt", "pool_format", "epoch_len", "active_k", "dest",
        "coherence_cidrs"].map String.toList := rfl

theorem meaning_manualDocument :
    meaning (manualDocument base64 keys args values) =
      some (manualTable base64 keys args values) := by
  have networkKeys := manualNetwork_keys base64 keys args values
  have sectionKeys : (manualNetwork base64 keys args values ++
      [("reality".toList, Value.table (manualReality values))]).map Prod.fst =
      ["master_secret", "server_salt", "pool_format", "epoch_len", "active_k", "dest",
        "coherence_cidrs", "reality"].map String.toList := rfl
  apply meaning_of_sections
  · rfl
  · exact distinct_of_names _ networkKeys (by decide)
  · exact distinct_of_names ["public_key", "short_ids", "fingerprint"] rfl (by decide)
  · intro entries isIn
    obtain ⟨entry, _, rfl⟩ := List.mem_map.mp isIn
    exact distinct_of_names ["sni", "weight"] rfl (by decide)
  · simp [defaultPool]
  · exact absent_of_names networkKeys (by decide)
  · exact absent_of_names sectionKeys (by decide)

def manualRaw : RawConfig :=
  { writtenConfig base64 keys args with
    masterSecret := String.ofList values.secret
    serverSalt := String.ofList values.salt
    reality := some
      { privateKey := none
        publicKey := String.ofList values.pbk
        shortIds := [String.ofList values.sid]
        fingerprint := "chrome" } }

theorem deserialize_manualReality :
    asReality (.table (manualReality values)) = (manualRaw base64 keys args values).reality := by
  simp [asReality_table, RawReality.deserialize, manualReality, orNone, orDefault, required, asString,
    asList, lookup_toList, manualRaw, -String.reduceToList]

theorem deserialize_manualTable :
    RawConfig.deserialize (manualTable base64 keys args values) =
      some (manualRaw base64 keys args values) := by
  simp [RawConfig.deserialize, manualTable, manualNetwork, networkTable, orNone, orDefault,
    required, asString, lookup_toList, -String.reduceToList, -List.map_map, deserialize_cidrs,
    deserialize_pool, asUsize_toNat, deserialize_manualReality base64 keys args, manualRaw,
    writtenConfig]

theorem manualDocument_formed (lawful : base64.Lawful) (dest : Unescaped args.dest.toList)
    (epochLen : Unescaped args.epochLen.toList) (secret : Unescaped values.secret)
    (salt : Unescaped values.salt) (pbk : Unescaped values.pbk) (sid : Unescaped values.sid) :
    ∀ line ∈ manualDocument base64 keys args values, line.WellFormed := by
  have formed : ∀ line ∈ document base64 keys args, line.WellFormed :=
    document_wellFormed lawful dest epochLen
  rw [document_split] at formed
  intro line isIn
  simp only [manualDocument, List.mem_append, List.mem_cons] at isIn
  rcases isIn with comment | rfl | rfl | format | network | heading | rfl | rfl | last | pool
  · exact formed line (List.mem_append_left _ (List.mem_of_mem_take comment))
  · exact ⟨by decide, secret, by simp⟩
  · exact ⟨by decide, salt, by simp⟩
  · exact formed line (List.mem_append_left _ (List.mem_of_mem_drop format))
  · exact formed line (by simp [network])
  · exact formed line (by simp [List.mem_of_mem_take heading])
  · exact ⟨by decide, pbk, by simp⟩
  · exact ⟨by decide, sid, by simp⟩
  · exact formed line (by simp [List.mem_of_mem_drop last])
  · exact formed line (by simp [pool])

theorem fromTomlStr_manual {toml : Parser} (conforms : toml.Conforms)
    (formed : ∀ line ∈ manualDocument base64 keys args values, line.WellFormed)
    (fits : toml.Represents args.activeK.toNat) :
    HydraConfig.fromTomlStr toml base64
        (String.ofList (render (manualDocument base64 keys args values))) =
      (manualRaw base64 keys args values).intoConfig base64 := by
  have integers : (manualDocument base64 keys args values).flatMap Line.integers =
      [args.activeK.toNat] := rfl
  have represented := List.forall_mem_singleton.mpr fits
  rw [← integers] at represented
  have parsed := conforms.reads formed represented
    (meaning_manualDocument base64 keys args values)
  simp only [HydraConfig.fromTomlStr, String.toList_ofList, parsed, deserialize_manualTable]

end Meaning

/-! ## The client's configuration -/

section Client

variable {base64 : Engine} {keys : Generated} {args : InitArgs}

/-- The values that the summary of a server shows, as they go into the script. -/
def summaryRewrite (base64 : Engine) (keys : Generated) : Rewrite where
  secret := secretText base64 keys.masterSecret.privateKey.toList
  salt := secretText base64 keys.serverSalt
  pbk := base64.encode keys.reality.publicKey.toList
  sid := keys.shortId.flatMap hexByte

theorem withScheme_secretText (bytes : Bytes) :
    withScheme (secretText base64 bytes) = secretText base64 bytes := by
  refine if_pos ?_
  rw [List.isPrefixOf_iff_prefix]
  exact List.prefix_append ..

theorem withoutScheme_secretText (bytes : Bytes) :
    withoutScheme (secretText base64 bytes) = base64.encode bytes := by
  have stripped : (secretText base64 bytes).dropPrefix? scheme = some (base64.encode bytes) :=
    List.dropPrefix?_append_of_beq _ (by decide)
  rw [withoutScheme, stripped]
  rfl

theorem secretText_ne_nil (bytes : Bytes) : secretText base64 bytes ≠ [] := List.cons_ne_nil _ _

theorem symbols_literal : alphabet.all isLiteral = true := by
  unfold alphabet
  rw [String.toList_ofList]
  rfl

theorem secretText_literal (lawful : base64.Lawful) (bytes : Bytes) :
    (secretText base64 bytes).all isLiteral = true :=
  List.all_eq_true.mpr (secretText_all lawful isLiteral symbols_literal rfl bytes)

theorem summaryRewrite_literal (lawful : base64.Lawful) (keys : Generated) :
    ((summaryRewrite base64 keys).secret ++ (summaryRewrite base64 keys).salt ++
      (summaryRewrite base64 keys).pbk ++ (summaryRewrite base64 keys).sid).all isLiteral =
        true := by
  have digits : ∀ n < 16, isLiteral (Nat.digitChar n) = true := by decide
  have hexLiteral : (keys.shortId.flatMap hexByte).all isLiteral = true := by
    apply List.all_eq_true.mpr
    intro c isIn
    obtain ⟨n, small, rfl⟩ := hex_chars isIn
    exact digits n small
  have pbk := secretText_literal lawful keys.reality.publicKey.toList
  rw [secretText, List.all_append, Bool.and_eq_true] at pbk
  simp only [List.all_append, Bool.and_eq_true]
  exact ⟨⟨⟨secretText_literal lawful _, secretText_literal lawful _⟩, pbk.2⟩, hexLiteral⟩

theorem defaultArgs_epochLen : Unescaped defaultArgs.epochLen.toList := by decide

theorem manualInit_dest {dest : List Char} (plain : Unescaped dest) :
    Unescaped (manualInit dest).dest.toList := by
  rw [manualInit, String.toList_ofList]
  exact plain

/-- What the script makes of the file that `init` writes for it. -/
theorem edited_init (values : Rewrite) (lawful : base64.Lawful) (keys : Generated)
    {dest : List Char} (plain : Unescaped dest) :
    (fileLines (renderConfig base64 keys (manualInit dest)).1.toList).filterMap values.edit =
      (manualDocument base64 keys (manualInit dest) values).flatMap Line.lines := by
  have written : Unescaped (manualInit dest).dest.toList := manualInit_dest plain
  have formed : ∀ line ∈ document base64 keys (manualInit dest), line.WellFormed :=
    document_wellFormed lawful written defaultArgs_epochLen
  rw [renderConfig_toList, fileLines_render formed]
  exact edited_document values lawful written defaultArgs_epochLen

/-- With the values of a server's summary the script comes to its end. -/
theorem clientManual_summary (lawful : base64.Lawful) (keys serverKeys : Generated)
    {addr p : List Char} (typed : addr ≠ []) (plain : Unescaped (addr ++ ':' :: p)) :
    clientManual base64 keys ((generatedValues base64 serverKeys).answers addr p) =
      .ok (render (manualDocument base64 keys (manualInit (addr ++ ':' :: p))
        (summaryRewrite base64 serverKeys))) := by
  generalize isAnswers : (generatedValues base64 serverKeys).answers addr p = answers
  have isDest : addr ++ ':' :: p = answers.dest := by
    rw [← isAnswers]
    rfl
  have values : answers.rewrite = summaryRewrite base64 serverKeys := by
    rw [← isAnswers, ManualAnswers.rewrite, ServerSummary.answers, generatedValues,
      withScheme_secretText, withScheme_secretText, withoutScheme_secretText, summaryRewrite]
  have given : ¬(answers.addr = [] ∨ answers.secret = [] ∨ answers.salt = [] ∨
      answers.pbk = []) := by
    rw [← isAnswers]
    rintro (missing | missing | missing | missing)
    · exact typed missing
    · exact secretText_ne_nil _ missing
    · exact secretText_ne_nil _ missing
    · exact secretText_ne_nil _ missing
  rw [isDest] at plain ⊢
  have edited := edited_init (summaryRewrite base64 serverKeys) lawful keys plain
  rw [clientManual, if_neg given, values, summaryRewrite_literal lawful]
  exact congrArg Except.ok (congrArg Grammar.unlines edited)

theorem summaryDocument_formed (lawful : base64.Lawful) {clientKeys : Generated}
    {dest : List Char} (plain : Unescaped dest) :
    ∀ line ∈ manualDocument base64 clientKeys (manualInit dest) (summaryRewrite base64 keys),
      line.WellFormed := by
  apply manualDocument_formed
  · exact lawful
  · exact manualInit_dest plain
  · exact defaultArgs_epochLen
  · exact secretText_unescaped lawful _
  · exact secretText_unescaped lawful _
  · intro c isIn
    exact secretText_unescaped lawful _ c (List.mem_append_right _ isIn)
  · exact hex_unescaped _

/-- The configuration of a client configured by hand. -/
def manualConfig (server : HydraConfig) (dest : List Char) : HydraConfig :=
  { withoutPrivateKey server with
    dest := some (String.ofList dest)
    epochLen := ⟨21600, 0⟩
    activeK := 6
    activeK_pos := Nat.succ_pos 5 }

theorem manualRaw_loads (lawful : base64.Lawful) (clientKeys : Generated) (dest : List Char)
    {server : HydraConfig} (loads : (writtenConfig base64 keys args).Loads base64 server)
    (back : LoadsBack keys args server) :
    (manualRaw base64 clientKeys (manualInit dest) (summaryRewrite base64 keys)).Loads base64
      (manualConfig server dest) := by
  have publicKey : decodeKey base64 "public_key"
      (String.ofList (base64.encode keys.reality.publicKey.toList)) =
        .ok keys.reality.publicKey :=
    bind_ok_iff.mpr ⟨_, decodeB64_encode lawful _ _, exactArray_ok_iff.mpr rfl⟩
  have settings : RawReality.intoSettings base64
      { privateKey := none
        publicKey := String.ofList (base64.encode keys.reality.publicKey.toList)
        shortIds := [hex keys.shortId]
        fingerprint := "chrome" } = .ok
      { privateKey := none, publicKey := keys.reality.publicKey, shortIds := [keys.shortId],
        fingerprint := "chrome" } := by
    rw [RawReality.intoSettings]
    refine bind_ok_iff.mpr ⟨_, publicKey, ?_⟩
    refine bind_ok_iff.mpr ⟨none, rfl, ?_⟩
    exact bind_ok_iff.mpr ⟨_, decodeShortIds_hex, rfl⟩
  refine ⟨rfl, loads.secret, loads.salt, rfl, ?_, loads.masterList, ?_, loads.certPin, rfl,
    loads.coherenceCidrs, loads.serverAddr⟩
  · have sixHours : parseDuration "6h" = .ok ⟨21600, 0⟩ := by decide
    exact sixHours
  · simp only [manualConfig, withoutPrivateKey, back.reality, Option.map_some]
    exact Option.Rel.some settings

theorem manualConfig_eq_iff {server : HydraConfig} {dest : List Char} :
    manualConfig server dest = withoutPrivateKey server ↔
      server.dest = some (String.ofList dest) ∧ server.epochLen = ⟨21600, 0⟩ ∧
        server.activeK = 6 := by
  rw [manualConfig, withoutPrivateKey, HydraConfig.mk.injEq]
  constructor
  · intro same
    exact ⟨same.2.2.2.2.2.1.symm, same.2.2.1.symm, same.2.2.2.1.symm⟩
  · intro same
    exact ⟨rfl, rfl, same.2.1.symm, same.2.2.symm, rfl, same.1.symm, rfl, rfl, rfl, rfl⟩

end Client

/-- A client configured by hand from a server's summary has the server's
configuration without its private key, with its own `dest` and with `init`'s
defaults for the epoch length and the size of the pool, whatever the server's are. -/
theorem manual_client_keeps_default_rotation (base64 : Engine) (lawful : base64.Lawful)
    (toml : Parser) (conforms : toml.Conforms) (serverKeys clientKeys : Generated)
    (files : Files) (args : InitArgs) (text : String)
    (produced : Produces base64 serverKeys files args text) (writable : Writable toml args)
    (addr p : List Char) (typed : addr ≠ []) (plain : Unescaped (addr ++ ':' :: p)) :
    ∃ server written client,
      HydraConfig.fromTomlStr toml base64 text = .ok server ∧
      clientManual base64 clientKeys ((printServerSummary text.toList).answers addr p) =
        .ok written ∧
      HydraConfig.fromTomlStr toml base64 (String.ofList written) = .ok client ∧
      client = manualConfig server (addr ++ ':' :: p) ∧
      (client = withoutPrivateKey server ↔
        args.dest = String.ofList (addr ++ ':' :: p) ∧
          parseDuration args.epochLen = .ok ⟨21600, 0⟩ ∧ args.activeK = 6) := by
  obtain ⟨server, loaded, loads, back⟩ := produced_loads lawful produced conforms writable
  have summary := produced_summary lawful produced writable.dest writable.epochLen
  have written := clientManual_summary lawful clientKeys serverKeys typed plain
  rw [← summary] at written
  have manualLoads := manualRaw_loads lawful clientKeys (addr ++ ':' :: p) loads back
  refine ⟨server, _, manualConfig server (addr ++ ':' :: p), loaded, written, ?_, rfl, ?_⟩
  · have fits : toml.Represents (manualInit (addr ++ ':' :: p)).activeK.toNat :=
      conforms.represents 6 (by decide)
    rw [fromTomlStr_manual _ _ _ _ conforms (summaryDocument_formed lawful plain) fits]
    exact RawConfig.intoConfig_ok_iff.mpr manualLoads
  · have sixDecoded : server.activeK = 6 ↔ args.activeK = 6 := by
      rw [back.activeK]
      exact UInt64.toNat_inj (b := 6)
    rw [manualConfig_eq_iff, back.dest, back.epochLen, Option.some.injEq, Except.ok.injEq,
      sixDecoded]

/-- `hydra init --dest 203.0.113.7:443`. -/
def vpsArgs : InitArgs := { defaultArgs with dest := "203.0.113.7:443" }

theorem vpsArgs_produces : Produces standard zeroKeys emptyDirectory vpsArgs
    (renderConfig standard zeroKeys vpsArgs).1 := Produces.file rfl rfl rfl

theorem vpsArgs_writable : Writable reader vpsArgs where
  dest := by decide
  epochLen := by decide
  duration := ⟨⟨21600, 0⟩, by decide⟩
  activeK := by decide
  integer := reader_conforms.represents _ (by decide)

theorem default_server_configures_client :
    ∃ text server written, Produces standard zeroKeys emptyDirectory vpsArgs text ∧
      HydraConfig.fromTomlStr reader standard text = .ok server ∧
      clientManual standard zeroKeys ((printServerSummary text.toList).answers
        "203.0.113.7".toList "443".toList) = .ok written ∧
      HydraConfig.fromTomlStr reader standard (String.ofList written) =
        .ok (withoutPrivateKey server) := by
  obtain ⟨server, written, client, loaded, left, read, -, same⟩ :=
    manual_client_keeps_default_rotation standard standard_lawful reader reader_conforms zeroKeys
      zeroKeys emptyDirectory vpsArgs _ vpsArgs_produces vpsArgs_writable "203.0.113.7".toList
      "443".toList (by decide) (by decide)
  have isClient := same.mpr ⟨rfl, by decide, rfl⟩
  exact ⟨_, server, written, vpsArgs_produces, loaded, left, isClient ▸ read⟩

end RealityHydra.Setup
