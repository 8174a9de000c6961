import RealityHydra.HydraCli.LoadsBack
import RealityHydra.Lib.LineEditing
import RealityHydra.Setup.Bundle

/-!
# The server's summary

After an installation the script shows the four values a client needs.  It reads
them back out of the configuration, each from the first line that looks like its
own, with `grep` and `sed`.
-/

set_option autoImplicit false

namespace RealityHydra.Setup

open RealityHydra.Lib.Base64
open RealityHydra.Lib.ByteCodec
open RealityHydra.Lib.LineEditing
open RealityHydra.Lib.Text
open RealityHydra.Lib.Toml
open RealityHydra.Lib.TomlGrammar (isSpace)
open RealityHydra.HydraCli
open RealityHydra.PoolEngine

/-! ## The substitutions -/

/-- `s/^[^=]*=[[:space:]]*//`. -/
def afterEquals (line : List Char) : List Char :=
  match splitOnce '=' line with
  | none => line
  | some (_, rest) => rest.dropWhile isSpace

/-- `s/#.*$//`. -/
def beforeHash (text : List Char) : List Char := text.takeWhile (· ≠ '#')

/-- `s/^"//`. -/
def withoutFirstQuote : List Char → List Char
  | [] => []
  | c :: rest => if c = '"' then rest else c :: rest

/-- `s/"[[:space:]]*$//`. -/
def withoutLastQuote (text : List Char) : List Char :=
  let body := text.rdropWhile isSpace
  if body.getLast? = some '"' then body.dropLast else text

/-- `s/[[:space:]]*$//`. -/
def trimEnd (text : List Char) : List Char := text.rdropWhile isSpace

/-- `s/"//g`. -/
def withoutQuotes (text : List Char) : List Char := text.filter (· ≠ '"')

/-- `s/.*\["?//`. -/
def afterBracket (line : List Char) : List Char :=
  match rsplitOnce '[' line with
  | none => line
  | some (_, rest) => withoutFirstQuote rest

/-- `s/"?\].*//`. -/
def beforeBracket (text : List Char) : List Char :=
  match splitOnce ']' text with
  | none => text
  | some (before, _) => if before.getLast? = some '"' then before.dropLast else before

/-! ## The values -/

def valueOf (line : List Char) : List Char :=
  trimEnd (withoutLastQuote (withoutFirstQuote (beforeHash (afterEquals line))))

/-- `grep -E` and `head -1`. -/
def firstLine (meets : List Char → Bool) (cfg : List Char) : List Char :=
  ((fileLines cfg).find? meets).getD []

def tomlVal (cfg key : List Char) : List Char := valueOf (firstLine (assigns key) cfg)

def publicKeyShown (cfg : List Char) : List Char :=
  trimEnd (withoutQuotes (beforeHash (afterEquals (firstLine (begins "public_key".toList) cfg))))

def shortIdShown (cfg : List Char) : List Char :=
  withoutQuotes (beforeBracket (afterBracket (firstLine (begins "short_ids".toList) cfg)))

structure ServerSummary where
  secret : List Char
  salt : List Char
  pbk : List Char
  sid : List Char
  deriving DecidableEq, Repr

def printServerSummary (cfg : List Char) : ServerSummary where
  secret := tomlVal cfg "master_secret".toList
  salt := tomlVal cfg "server_salt".toList
  pbk := publicKeyShown cfg
  sid := shortIdShown cfg

/-! ## Reading an entry back -/

/-- A text without quotes, comment signs, brackets and spaces. -/
def Solid (text : List Char) : Prop :=
  ∀ c ∈ text, c ≠ '"' ∧ c ≠ '#' ∧ c ≠ '[' ∧ c ≠ ']' ∧ isSpace c = false

theorem trimEnd_spaces (front : List Char) {last : Char} (ends : isSpace last = false)
    (count : Nat) : trimEnd (front ++ last :: List.replicate count ' ') = front ++ [last] := by
  induction count with
  | zero =>
      rw [trimEnd, List.replicate_zero, List.rdropWhile_concat_neg _ _ _ (by simp [ends])]
  | succ count ih =>
      have more : front ++ last :: List.replicate (count + 1) ' ' =
          front ++ last :: List.replicate count ' ' ++ [' '] := by
        rw [List.replicate_succ', List.append_assoc, List.cons_append]
      rw [more, trimEnd, List.rdropWhile_concat_pos _ _ _ rfl]
      exact ih

section Entry

variable {name text : List Char} (bare : BareKey name) (solid : Solid text) (pad : Nat)
  (note : Option Note)

/-- What stands of a note before its comment sign. -/
theorem noteChars_spaces : ∃ count tail, noteChars note = List.replicate count ' ' ++ tail ∧
    (tail = [] ∨ ∃ comment, tail = '#' :: comment) := by
  cases note with
  | none => exact ⟨0, [], rfl, Or.inl rfl⟩
  | some note => exact ⟨note.pad, '#' :: note.text, rfl, Or.inr ⟨_, rfl⟩⟩

section Text

include solid

theorem trimEnd_solid (count : Nat) : trimEnd (text ++ List.replicate count ' ') = text := by
  cases text using List.reverseRecOn with
  | nil =>
      rw [List.nil_append, trimEnd, List.rdropWhile_eq_nil_iff]
      intro c isIn
      rw [List.eq_of_mem_replicate isIn]
      rfl
  | append_singleton front last =>
      have ends := (solid last (by simp)).2.2.2.2
      rw [List.append_assoc, List.singleton_append, trimEnd_spaces front ends]

theorem withoutQuotes_single (front : List Char) :
    withoutQuotes (beforeBracket (afterBracket (front ++ '[' :: (quoted text ++ [']'])))) =
      text := by
  have noOpening : '[' ∉ quoted text ++ [']'] := by
    simp only [quoted, List.mem_append, List.mem_cons, List.not_mem_nil, or_false]
    rintro ((quote | inText | quote) | bracket)
    · contradiction
    · exact (solid _ inText).2.2.1 rfl
    · contradiction
    · contradiction
  have noClosing : ']' ∉ text ++ ['"'] := by
    simp only [List.mem_append, List.mem_singleton]
    rintro (inText | quote)
    · exact (solid _ inText).2.2.2.1 rfl
    · contradiction
  have opened : afterBracket (front ++ '[' :: (quoted text ++ [']'])) =
      (text ++ ['"']) ++ ']' :: [] := by
    rw [afterBracket, rsplitOnce_append noOpening]
    simp [quoted, withoutFirstQuote]
  have cut : splitOnce ']' ((text ++ ['"']) ++ ']' :: []) = some (text ++ ['"'], []) :=
    splitOnce_eq_some_iff.mpr ⟨rfl, noClosing⟩
  rw [opened, beforeBracket, cut]
  simp only [List.getLast?_concat, if_true, List.dropLast_concat]
  apply List.filter_eq_self.mpr
  intro c isIn
  rw [decide_eq_true_eq]
  exact (solid c isIn).1

end Text

include bare

theorem afterEquals_entry (rest : List Char) (c : Char) (starts : isSpace c = false) :
    afterEquals (entryFront name pad ++ c :: rest) = c :: rest := by
  have notIn : '=' ∉ name ++ List.replicate pad ' ' := by
    rw [List.mem_append, List.mem_replicate]
    rintro (inName | ⟨-, isSpace⟩)
    · have isBare := bare.2 _ inName
      contradiction
    · contradiction
  have cut : splitOnce '=' (entryFront name pad ++ c :: rest) =
      some (name ++ List.replicate pad ' ', ' ' :: c :: rest) := by
    apply splitOnce_eq_some_iff.mpr ⟨?_, notIn⟩
    simp [entryFront]
  rw [afterEquals, cut]
  have stops : (c :: rest).dropWhile isSpace = c :: rest := by
    rw [List.dropWhile_cons, starts]
    rfl
  exact stops

include solid

/-- Up to a comment sign there are the quoted text and some spaces. -/
theorem beforeHash_entry :
    ∃ count, beforeHash (afterEquals (entryFront name pad ++ (quoted text ++ noteChars note))) =
      quoted text ++ List.replicate count ' ' := by
  obtain ⟨count, tail, isNote, isTail⟩ := noteChars_spaces note
  refine ⟨count, ?_⟩
  have value := afterEquals_entry bare pad (text ++ ['"'] ++ noteChars note) '"' rfl
  have line : quoted text ++ noteChars note = '"' :: (text ++ ['"'] ++ noteChars note) := rfl
  rw [line, value, ← line, beforeHash, isNote, ← List.append_assoc]
  rw [List.takeWhile_append_of_pos]
  · rcases isTail with rfl | ⟨comment, rfl⟩
    · simp
    · simp
  · intro c isIn
    rw [decide_eq_true_eq]
    rintro rfl
    simp only [quoted, List.mem_append, List.mem_cons, List.mem_replicate, List.not_mem_nil,
      or_false] at isIn
    rcases isIn with (quote | inText | quote) | ⟨-, space⟩
    · contradiction
    · exact (solid _ inText).2.1 rfl
    · contradiction
    · contradiction

theorem valueOf_entry : valueOf (entryFront name pad ++ (quoted text ++ noteChars note)) = text := by
  obtain ⟨count, before⟩ := beforeHash_entry bare solid pad note
  have unopened : withoutFirstQuote (quoted text ++ List.replicate count ' ') =
      text ++ '"' :: List.replicate count ' ' := by
    simp [quoted, withoutFirstQuote]
  have closed : withoutLastQuote (text ++ '"' :: List.replicate count ' ') = text := by
    have quote : isSpace '"' = false := rfl
    have body := trimEnd_spaces text quote count
    rw [trimEnd] at body
    rw [withoutLastQuote, body]
    simp
  have whole := trimEnd_solid solid 0
  rw [List.replicate_zero, List.append_nil] at whole
  rw [valueOf, before, unopened, closed, whole]

theorem withoutQuotes_entry : trimEnd (withoutQuotes (beforeHash (afterEquals
    (entryFront name pad ++ (quoted text ++ noteChars note))))) = text := by
  obtain ⟨count, before⟩ := beforeHash_entry bare solid pad note
  have unquoted : withoutQuotes (quoted text ++ List.replicate count ' ') =
      text ++ List.replicate count ' ' := by
    have kept : text.filter (· ≠ '"') = text := by
      apply List.filter_eq_self.mpr
      intro c isIn
      rw [decide_eq_true_eq]
      exact (solid c isIn).1
    rw [withoutQuotes, quoted, List.cons_append, List.filter_cons_of_neg (by simp),
      List.append_assoc, List.filter_append, kept]
    simp
  rw [before, unquoted, trimEnd_solid solid]

end Entry

/-! ## The summary of what `init` wrote -/

theorem fileLines_render {document : List Line} (formed : ∀ line ∈ document, line.WellFormed) :
    fileLines (render document) = document.flatMap Line.lines := by
  have pieces := splitOn_render formed []
  rw [List.append_nil] at pieces
  rw [fileLines, pieces]
  simp

section Shown

variable {base64 : Engine} {keys : Generated} {args : InitArgs}

/-- What holds of the symbols of base64 and of the prefix holds of a secret's text. -/
theorem secretText_all (lawful : base64.Lawful) (check : Char → Bool)
    (onSymbols : alphabet.all check = true) (onOthers : "base64:=".toList.all check = true)
    (bytes : Bytes) : ∀ c ∈ secretText base64 bytes, check c = true := by
  intro c isIn
  rcases List.mem_append.mp isIn with inPrefix | inCode
  · apply List.all_eq_true.mp onOthers c
    exact List.mem_append_left ['='] inPrefix
  · rcases lawful.symbols bytes c inCode with symbol | rfl
    · exact List.all_eq_true.mp onSymbols c symbol
    · exact List.all_eq_true.mp onOthers '=' (by decide)

def isSolid (c : Char) : Bool := c ≠ '"' && c ≠ '#' && c ≠ '[' && c ≠ ']' && !isSpace c

theorem solid_of_all {text : List Char} (every : ∀ c ∈ text, isSolid c = true) : Solid text := by
  intro c isIn
  simpa [isSolid, and_assoc] using every c isIn

theorem secretText_solid (lawful : base64.Lawful) (bytes : Bytes) :
    Solid (secretText base64 bytes) := by
  apply solid_of_all
  apply secretText_all lawful isSolid _ rfl
  unfold alphabet
  rw [String.toList_ofList]
  rfl

theorem hex_solid (bytes : Bytes) : Solid (bytes.flatMap hexByte) := by
  apply solid_of_all
  intro c isIn
  obtain ⟨n, small, rfl⟩ := hex_chars isIn
  have digits : ∀ n < 16, isSolid (Nat.digitChar n) = true := by decide
  exact digits n small

/-- No entry of `front` is under a key that begins with `key`. -/
def Unmentioned (key : List Char) (front : List Line) : Prop :=
  (front.all fun line => !mentions key line) = true

theorem Unmentioned.silent {key : List Char} {front : List Line}
    (unmentioned : Unmentioned key front) : ∀ line ∈ front, mentions key line = false := by
  intro line isIn
  simpa using List.all_eq_true.mp unmentioned line isIn

section First

variable {cfg key : List Char} {lines front back : List Line} {pad : Nat} {literal : Literal}
  {note : Option Note} {body : List Char}

/-- The entry under `key` that no line before looks like, found either way. -/
theorem firstLine_entry (isCfg : fileLines cfg = lines.flatMap Line.lines)
    (formed : ∀ line ∈ lines, line.WellFormed)
    (split : lines = front ++ .entry key pad literal note :: back)
    (single : (Line.entry key pad literal note).lines = [entryFront key pad ++ body])
    (unmentioned : Unmentioned key front) :
    firstLine (assigns key) cfg = entryFront key pad ++ body ∧
      firstLine (begins key) cfg = entryFront key pad ++ body := by
  have bare : BareKey key := by
    have entry := formed (.entry key pad literal note) (by rw [split]; simp)
    exact entry.1
  have within : ∀ line ∈ front, line.WellFormed := by
    intro line isIn
    exact formed line (by rw [split]; exact List.mem_append_left _ isIn)
  rw [firstLine, firstLine, isCfg, split]
  refine ⟨?_, ?_⟩
  · have passed : ∀ line ∈ front, ∀ written ∈ line.lines, assigns key written = false := by
      intro line isIn
      exact assigns_of_not_mentions bare (within line isIn) (unmentioned.silent line isIn)
    rw [find_written passed single (assigns_entryFront bare pad body), Option.getD_some]
  · have met : begins key (entryFront key pad ++ body) = true := by
      rw [begins_entryFront bare bare]
      exact List.isPrefixOf_iff_prefix.mpr (List.prefix_refl key)
    have passed : ∀ line ∈ front, ∀ written ∈ line.lines, begins key written = false := by
      intro line isIn
      exact begins_of_not_mentions bare (within line isIn) (unmentioned.silent line isIn)
    rw [find_written passed single met, Option.getD_some]

end First

def beforeKeys (args : InitArgs) : List Line :=
  epochLine args :: kLine args :: (edgeLines ++ destLine args :: tunnelLines)

theorem document_split (base64 : Engine) (keys : Generated) (args : InitArgs) :
    document base64 keys args =
      secretsLines base64 keys ++ (beforeKeys args ++ (realityLines base64 keys ++ poolLines)) := by
  simp [document, beforeKeys, afterDest]

theorem document_wellFormed (lawful : base64.Lawful) (dest : Unescaped args.dest.toList)
    (epochLen : Unescaped args.epochLen.toList) :
    ∀ line ∈ document base64 keys args, line.WellFormed := by
  intro line isIn
  exact document_formed lawful dest epochLen 0 line (List.mem_append_left _ isIn)

/-- Every stretch of the file is well formed. -/
theorem stretches_formed (lawful : base64.Lawful) (dest : Unescaped args.dest.toList)
    (epochLen : Unescaped args.epochLen.toList) :
    (∀ line ∈ secretsLines base64 keys, line.WellFormed) ∧
      (∀ line ∈ beforeKeys args, line.WellFormed) ∧
      (∀ line ∈ realityLines base64 keys, line.WellFormed) ∧
      ∀ line ∈ poolLines, line.WellFormed := by
  have formed : ∀ line ∈ document base64 keys args, line.WellFormed :=
    document_wellFormed lawful dest epochLen
  rw [document_split] at formed
  refine ⟨?_, ?_, ?_, ?_⟩
  · intro line isIn
    exact formed line (by simp [isIn])
  · intro line isIn
    exact formed line (by simp [isIn])
  · intro line isIn
    exact formed line (by simp [isIn])
  · intro line isIn
    exact formed line (by simp [isIn])

/-- The values that a file was generated with. -/
def generatedValues (base64 : Engine) (keys : Generated) : ServerSummary where
  secret := secretText base64 keys.masterSecret.privateKey.toList
  salt := secretText base64 keys.serverSalt
  pbk := secretText base64 keys.reality.publicKey.toList
  sid := keys.shortId.flatMap hexByte

theorem printServerSummary_document (lawful : base64.Lawful) {cfg : List Char}
    {lines more : List Line} (isLines : lines = document base64 keys args ++ more)
    (isCfg : fileLines cfg = lines.flatMap Line.lines)
    (formed : ∀ line ∈ lines, line.WellFormed) :
    printServerSummary cfg = generatedValues base64 keys := by
  rw [document_split, List.append_assoc] at isLines
  have secret : tomlVal cfg "master_secret".toList =
      secretText base64 keys.masterSecret.privateKey.toList := by
    have split : lines = (secretsLines base64 keys).take 3 ++
        .entry "master_secret".toList _ (.string _) _ :: _ := isLines
    have unmentioned : Unmentioned "master_secret".toList ((secretsLines base64 keys).take 3) := rfl
    rw [tomlVal, (firstLine_entry isCfg formed split rfl unmentioned).1]
    exact valueOf_entry (by decide) (secretText_solid lawful _) ..
  have salt : tomlVal cfg "server_salt".toList = secretText base64 keys.serverSalt := by
    have split : lines = (secretsLines base64 keys).take 4 ++
        .entry "server_salt".toList _ (.string _) _ :: _ := isLines
    have unmentioned : Unmentioned "server_salt".toList ((secretsLines base64 keys).take 4) := rfl
    rw [tomlVal, (firstLine_entry isCfg formed split rfl unmentioned).1]
    exact valueOf_entry (by decide) (secretText_solid lawful _) ..
  have atKeys : ∀ count, lines = (secretsLines base64 keys ++ (beforeKeys args ++
      (realityLines base64 keys).take count)) ++
        ((realityLines base64 keys).drop count ++ (poolLines ++ more)) := by
    intro count
    rw [isLines]
    conv_lhs => rw [← List.take_append_drop count (realityLines base64 keys)]
    simp only [List.append_assoc]
  have pbk : publicKeyShown cfg = secretText base64 keys.reality.publicKey.toList := by
    have split : lines = (secretsLines base64 keys ++ (beforeKeys args ++
        (realityLines base64 keys).take 3)) ++
          .entry "public_key".toList 2 (.string (secretText base64 keys.reality.publicKey.toList))
            (some ⟨2, " client pbk".toList⟩) ::
              ((realityLines base64 keys).drop 4 ++ (poolLines ++ more)) := atKeys 3
    have unmentioned : Unmentioned "public_key".toList (secretsLines base64 keys ++
        (beforeKeys args ++ (realityLines base64 keys).take 3)) := rfl
    rw [publicKeyShown, (firstLine_entry isCfg formed split rfl unmentioned).2]
    exact withoutQuotes_entry (by decide) (secretText_solid lawful _) ..
  have sid : shortIdShown cfg = keys.shortId.flatMap hexByte := by
    have split : lines = (secretsLines base64 keys ++ (beforeKeys args ++
        (realityLines base64 keys).take 4)) ++
          .entry "short_ids".toList 3 (.single (keys.shortId.flatMap hexByte)) none ::
            ((realityLines base64 keys).drop 5 ++ (poolLines ++ more)) := atKeys 4
    have unmentioned : Unmentioned "short_ids".toList (secretsLines base64 keys ++
        (beforeKeys args ++ (realityLines base64 keys).take 4)) := rfl
    rw [shortIdShown, (firstLine_entry isCfg formed split rfl unmentioned).2]
    exact withoutQuotes_single (hex_solid _) _
  rw [printServerSummary, secret, salt, pbk, sid, generatedValues]

variable {files : Files} {text : String} (lawful : base64.Lawful)
  (produced : Produces base64 keys files args text)

include lawful produced

theorem produced_summary (dest : Unescaped args.dest.toList)
    (epochLen : Unescaped args.epochLen.toList) :
    printServerSummary text.toList = generatedValues base64 keys := by
  obtain ⟨blanks, isText⟩ := produced.lines
  have formed : ∀ line ∈ document base64 keys args ++ List.replicate blanks Line.blank,
      line.WellFormed := document_formed lawful dest epochLen blanks
  rw [isText]
  exact printServerSummary_document lawful rfl (fileLines_render formed) formed

/-- The server that reads the file has what was generated for it. -/
theorem produced_loads {toml : Parser} (conforms : toml.Conforms) (writable : Writable toml args) :
    ∃ server, HydraConfig.fromTomlStr toml base64 text = .ok server ∧
      (writtenConfig base64 keys args).Loads base64 server ∧ LoadsBack keys args server := by
  obtain ⟨length, duration⟩ := writable.duration
  obtain ⟨server, loaded, back⟩ : ∃ server,
      (writtenConfig base64 keys args).intoConfig base64 = .ok server ∧
        LoadsBack keys args server := writtenConfig_loads lawful writable.activeK duration
  refine ⟨server, ?_, RawConfig.intoConfig_ok_iff.mp loaded, back⟩
  rw [fromTomlStr_document lawful conforms writable.dest writable.epochLen writable.integer
    produced, loaded]

end Shown

end RealityHydra.Setup
