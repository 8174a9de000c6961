import RealityHydra.Setup.Installed

/-!
# Clients on Windows

`setup.ps1` sets up clients only.  By hand it changes more of the file than the other
script does: the address is written a second time, as the one that is dialled, and
the pin that `hydra server` prints goes into the file, so that such a client does not
trust just anyone.
-/

set_option autoImplicit false

namespace RealityHydra.Setup

open RealityHydra.HydraCli
open RealityHydra.HydraClient
open RealityHydra.Lib.Base64
open RealityHydra.Lib.ByteCodec
open RealityHydra.Lib.LineEditing
open RealityHydra.Lib.Text (trim trim_eq_self)
open RealityHydra.Lib.Toml
open RealityHydra.Lib.TomlGrammar (Grammar lineParser)
open RealityHydra.Lib.Traversal
open RealityHydra.PoolEngine
open RealityHydra.Primitives

/-! ## The script -/

/-- What is typed at the prompts; a blank pin is none. -/
structure WindowsAnswers extends ManualAnswers where
  pin : List Char
  deriving DecidableEq, Repr

/-- `-like` and `-match` do not tell small letters from capitals; the patterns are in
ASCII. -/
def lowered (text : List Char) : List Char := text.map Char.toLower

/-- `if ($secret -notlike "base64:*") { $secret = "base64:$secret" }`. -/
def withSchemeLike (value : List Char) : List Char :=
  if scheme.isPrefixOf (lowered value) then value else scheme ++ value

/-- `if ($pbk -like "base64:*") { $pbk = $pbk.Substring(7) }`. -/
def withoutSchemeLike (value : List Char) : List Char :=
  if scheme.isPrefixOf (lowered value) then value.drop 7 else value

/-- `-match '^key\s*='`. -/
def matchesKey (key line : List Char) : Bool :=
  key.isPrefixOf (lowered line) &&
    ((line.drop key.length).dropWhile isWhitespace).head? == some '='

/-- `-match '^\s*key\s*='`. -/
def matchesIndented (key line : List Char) : Bool := matchesKey key (line.dropWhile isWhitespace)

/-- `-match '^#\s*key\s*='`. -/
def matchesComment (key : List Char) : List Char → Bool
  | '#' :: rest => matchesIndented key rest
  | _ => false

structure WindowsRewrite extends Rewrite where
  serverAddr : List Char
  pin : List Char

def WindowsRewrite.edit (values : WindowsRewrite) (line : List Char) : Option (List Char) :=
  if matchesKey "master_secret".toList line then
    some ("master_secret = \"".toList ++ values.secret ++ ['"'])
  else if matchesKey "server_salt".toList line then
    some ("server_salt   = \"".toList ++ values.salt ++ ['"'])
  else if matchesIndented "public_key".toList line then
    some ("public_key  = \"".toList ++ values.pbk ++ ['"'])
  else if matchesIndented "short_ids".toList line then
    some ("short_ids   = [\"".toList ++ values.sid ++ ['"', ']'])
  else if matchesIndented "private_key".toList line then none
  -- the two lines that `init` leaves commented out
  else if matchesComment "server_addr".toList line then
    some ("server_addr = \"".toList ++ values.serverAddr ++ ['"'])
  else if matchesComment "cert_pin".toList line then
    some (if values.pin = [] then line else "cert_pin    = \"".toList ++ values.pin ++ ['"'])
  else some line

/-- `Set-Content -Encoding UTF8`: the line ends as on Windows, and the older PowerShell
writes a byte-order mark in front. -/
def setContent (marked : Bool) (text : List Char) : List Char :=
  (if marked then ['\uFEFF'] else []) ++ text ++ ['\r', '\n']

def WindowsAnswers.rewrite (answers : WindowsAnswers) : WindowsRewrite where
  secret := withSchemeLike answers.secret
  salt := withSchemeLike answers.salt
  pbk := withoutSchemeLike answers.pbk
  sid := answers.sid
  serverAddr := answers.dest
  pin := if answers.pin = [] then [] else withSchemeLike answers.pin

/-- The file that `New-ClientConfigManual` leaves, if it gets to write one; `readBack` is
what `Get-Content` makes of a line. -/
def newClientConfigManual (base64 : Engine) (readBack : List Char → List Char)
    (keys : Generated) (marked : Bool) (answers : WindowsAnswers) : Option (List Char) :=
  if answers.addr = [] ∨ answers.secret = [] ∨ answers.salt = [] ∨ answers.pbk = [] then none
  else
    let tmp := (renderConfig base64 keys (manualInit answers.dest)).1.toList
    some (setContent marked
      (['\n'].intercalate (((fileLines tmp).map readBack).filterMap answers.rewrite.edit)))

/-- The answers of someone who copies the server's summary, and the pin if one is given. -/
def ServerSummary.windowsAnswers (summary : ServerSummary) (base64 : Engine)
    (addr p : List Char) (pin : Option (Vector UInt8 32)) : WindowsAnswers :=
  { summary.answers addr p with
    pin := (pin.map fun bytes => base64.encode bytes.toList).getD [] }

/-! ## What is read back

The file is in UTF-8, and the older PowerShell takes it for the code page of the system. -/

def isAscii (c : Char) : Bool := c.toNat < 128

/-- What is known of a code page: ASCII text is what it was, up to the first other
character; this begins with no blank and no letter of ASCII, and nothing that could not
be read becomes a control character. -/
structure CodePage (readBack : List Char → List Char) : Prop where
  nil : readBack [] = []
  ascii : ∀ c rest, isAscii c = true → readBack (c :: rest) = c :: readBack rest
  foreign : ∀ c rest, isAscii c = false → isWhitespace c = false →
    ∀ d ∈ (readBack (c :: rest)).head?, isWhitespace d = false ∧ d.isAlpha = false
  printable : ∀ text, Printable text → Printable (readBack text)

/-- The comments of `init` are not in ASCII, the entries that stay are. -/
def reread (readBack : List Char → List Char) : Line → Line
  | .comment text => .comment (readBack text)
  | line => line

/-- The first word of the comment is none that is looked for. -/
def isOther : List Char → Bool
  | ' ' :: c :: _ => !isWhitespace c && c.toLower != 's' && c.toLower != 'c'
  | _ => false

theorem toLower_ne {c letter : Char} (noLetter : c.isAlpha = false)
    (isLetter : letter.isAlpha = true) : c.toLower ≠ letter := by
  have notUpper : ¬(c.val ≥ 'A'.val ∧ c.val ≤ 'Z'.val) := by
    intro isUpper
    have upper : c.isUpper = true := decide_eq_true isUpper
    have both : c.isAlpha = (c.isUpper || c.isLower) := rfl
    rw [both, upper, Bool.true_or] at noLetter
    contradiction
  have kept : c.toLower = c := dif_neg notUpper
  rw [kept]
  rintro rfl
  rw [isLetter] at noLetter
  contradiction

theorem isOther_word {text : List Char} (other : isOther text = true) :
    ∃ c rest, text = ' ' :: c :: rest ∧ isWhitespace c = false ∧ c.toLower ≠ 's' ∧
      c.toLower ≠ 'c' := by
  unfold isOther at other
  split at other
  · rename_i c rest
    simp only [Bool.and_eq_true, Bool.not_eq_true', bne_iff_ne] at other
    exact ⟨c, rest, rfl, other.1.1, other.1.2, other.2⟩
  · contradiction

section CodePages

variable {readBack : List Char → List Char} (codePage : CodePage readBack)

include codePage

theorem readBack_front {front : List Char} (ascii : front.all isAscii = true)
    (rest : List Char) : readBack (front ++ rest) = front ++ readBack rest := by
  induction front with
  | nil => rfl
  | cons c front ih =>
      rw [List.all_cons, Bool.and_eq_true] at ascii
      rw [List.cons_append, codePage.ascii c _ ascii.1, ih ascii.2, List.cons_append]

theorem readBack_ascii {line : List Char} (ascii : line.all isAscii = true) :
    readBack line = line := by
  have same := readBack_front codePage ascii []
  rwa [List.append_nil, codePage.nil, List.append_nil] at same

theorem reread_formed {stretch : List Line} (formed : ∀ line ∈ stretch, line.WellFormed) :
    ∀ line ∈ stretch.map (reread readBack), line.WellFormed := by
  intro line isIn
  obtain ⟨original, isOriginal, rfl⟩ := List.mem_map.mp isIn
  have given := formed original isOriginal
  cases original with
  | comment text => exact codePage.printable text given
  | blank | entry | heading => exact given

/-- What a comment's first word is read as. -/
theorem readBack_word {c : Char} {rest : List Char} (solid : isWhitespace c = false)
    (notS : c.toLower ≠ 's') (notC : c.toLower ≠ 'c') :
    readBack (c :: rest) = [] ∨ ∃ d more, readBack (c :: rest) = d :: more ∧
      isWhitespace d = false ∧ d.toLower ≠ 's' ∧ d.toLower ≠ 'c' := by
  cases ascii : isAscii c with
  | true => exact Or.inr ⟨c, _, codePage.ascii c rest ascii, solid, notS, notC⟩
  | false =>
      have begins := codePage.foreign c rest ascii solid
      cases isRead : readBack (c :: rest) with
      | nil => exact Or.inl rfl
      | cons d more =>
          rw [isRead] at begins
          obtain ⟨visible, noLetter⟩ := begins d rfl
          refine Or.inr ⟨d, more, rfl, visible, ?_, ?_⟩
          · exact toLower_ne noLetter (by decide)
          · exact toLower_ne noLetter (by decide)

end CodePages

/-! ## What the edit does to the file -/

/-- One of the patterns matches. -/
def touched (line : List Char) : Bool :=
  matchesKey "master_secret".toList line || matchesKey "server_salt".toList line ||
    matchesIndented "public_key".toList line || matchesIndented "short_ids".toList line ||
    matchesIndented "private_key".toList line || matchesComment "server_addr".toList line ||
    matchesComment "cert_pin".toList line

/-- No pattern matches the line, whatever the code page. -/
def isKept (line : Line) : Bool :=
  (line.lines.all fun written => written.all isAscii && !touched written) ||
    match line with
    | .comment text => isOther text
    | _ => false

def Kept (stretch : List Line) : Prop := stretch.all isKept = true

instance (stretch : List Line) : Decidable (Kept stretch) := inferInstanceAs (Decidable (_ = _))

section File

variable (base64 : Engine) (keys : Generated) (args : InitArgs)
  (readBack : List Char → List Char) (values : WindowsRewrite)

theorem edit_untouched {line : List Char} (untouched : touched line = false) :
    values.edit line = some line := by
  simp only [touched, Bool.or_eq_false_iff] at untouched
  obtain ⟨⟨⟨⟨⟨⟨secret, salt⟩, pbk⟩, sid⟩, private_⟩, addr⟩, pin⟩ := untouched
  simp only [WindowsRewrite.edit, secret, salt, pbk, sid, private_, addr, pin,
    Bool.false_eq_true, if_false]

/-- The lines as they are read back and edited. -/
def rewritten (stretch : List Line) : List (List Char) :=
  ((stretch.flatMap Line.lines).map readBack).filterMap values.edit

@[simp] theorem rewritten_append (first second : List Line) :
    rewritten readBack values (first ++ second) =
      rewritten readBack values first ++ rewritten readBack values second := by
  rw [rewritten, List.flatMap_append, List.map_append, List.filterMap_append]
  rfl

/-- A comment that begins with another word, or with none. -/
theorem comment_untouched {word : List Char}
    (other : word = [] ∨ ∃ d more, word = d :: more ∧ isWhitespace d = false ∧
      d.toLower ≠ 's' ∧ d.toLower ≠ 'c') : touched ('#' :: ' ' :: word) = false := by
  have comment : ∀ key, matchesComment key ('#' :: ' ' :: word) =
      matchesKey key (word.dropWhile isWhitespace) := fun _ => rfl
  rcases other with rfl | ⟨d, more, rfl, visible, notS, notC⟩
  · rfl
  · have kept : (d :: more).dropWhile isWhitespace = d :: more :=
      List.dropWhile_cons_of_neg (by rw [visible]; exact Bool.false_ne_true)
    have keyless : ∀ first rest, d.toLower ≠ first →
        matchesKey (first :: rest) (d :: more) = false := by
      intro first rest unlike
      rw [matchesKey, lowered, List.map_cons, List.isPrefixOf_cons_cons,
        beq_false_of_ne unlike.symm, Bool.false_and, Bool.false_and]
    have server : matchesKey "server_addr".toList (d :: more) = false := keyless 's' _ notS
    have pin : matchesKey "cert_pin".toList (d :: more) = false := keyless 'c' _ notC
    rw [touched, comment, comment, kept, server, pin]
    rfl

section Rewriting

variable {readBack} (codePage : CodePage readBack)

include codePage

theorem reread_lines {line : Line} (kept : isKept line = true) :
    line.lines.map readBack = (reread readBack line).lines ∧
      ∀ written ∈ (reread readBack line).lines, touched written = false := by
  have ascii : (line.lines.all fun written => written.all isAscii && !touched written) = true →
      (∀ written ∈ line.lines, readBack written = written) ∧
        ∀ written ∈ line.lines, touched written = false := by
    intro ascii
    have each : ∀ written ∈ line.lines, written.all isAscii = true ∧ touched written = false := by
      intro written isIn
      simpa using List.all_eq_true.mp ascii written isIn
    exact ⟨fun written isIn => readBack_ascii codePage (each written isIn).1,
      fun written isIn => (each written isIn).2⟩
  cases line with
  | comment text =>
      have sign : readBack ('#' :: text) = '#' :: readBack text := codePage.ascii '#' text rfl
      refine ⟨congrArg ([·]) sign, ?_⟩
      intro written isWritten
      rw [List.mem_singleton.mp isWritten, ← sign]
      rcases Bool.or_eq_true_iff.mp kept with plain | other
      · obtain ⟨same, untouched⟩ := ascii plain
        rw [same _ (List.mem_singleton_self _)]
        exact untouched _ (List.mem_singleton_self _)
      · obtain ⟨c, rest, rfl, visible, notS, notC⟩ := isOther_word other
        rw [sign, codePage.ascii ' ' _ rfl]
        exact comment_untouched (readBack_word codePage visible notS notC)
  | blank | entry | heading =>
      obtain ⟨same, untouched⟩ :=
        ascii ((Bool.or_eq_true_iff.mp kept).resolve_right Bool.false_ne_true)
      exact ⟨(List.map_congr_left same).trans (List.map_id' _), untouched⟩

theorem rewritten_kept {stretch : List Line} (kept : Kept stretch) :
    rewritten readBack values stretch = (stretch.map (reread readBack)).flatMap Line.lines := by
  have each : ∀ line ∈ stretch, isKept line = true := List.all_eq_true.mp kept
  have lines : (stretch.flatMap Line.lines).map readBack =
      (stretch.map (reread readBack)).flatMap Line.lines := by
    rw [List.map_flatMap, List.flatMap_map]
    exact List.flatMap_congr fun line isIn => (reread_lines codePage (each line isIn)).1
  rw [rewritten, lines]
  apply filterMap_kept
  intro line isLine written isWritten
  obtain ⟨original, isIn, rfl⟩ := List.mem_map.mp isLine
  exact edit_untouched values ((reread_lines codePage (each original isIn)).2 written isWritten)

end Rewriting

/-- The lines in place of the two that are commented out. -/
def windowsTunnel : List Line :=
  (tunnelLines.take 7).map (reread readBack) ++
    plainEntry "server_addr" 1 (.string values.serverAddr) ::
    (if values.pin = [] then tunnelLines.drop 8
      else plainEntry "cert_pin" 4 (.string values.pin) :: tunnelLines.drop 9)

def windowsDocument : List Line :=
  ((secretsLines base64 keys).take 3).map (reread readBack) ++
    .entry "master_secret".toList 1 (.string values.secret) none ::
    .entry "server_salt".toList 3 (.string values.salt) none ::
    ((secretsLines base64 keys).drop 5 ++ (epochLine args :: kLine args ::
      (edgeLines.map (reread readBack) ++ destLine args :: (windowsTunnel readBack values ++
        (((realityLines base64 keys).take 2).map (reread readBack) ++
          .entry "public_key".toList 2 (.string values.pbk) none ::
          .entry "short_ids".toList 3 (.single values.sid) none ::
          (((realityLines base64 keys).drop 5).map (reread readBack) ++ poolLines))))))

section Edited

variable {base64 keys args} {readBack} (codePage : CodePage readBack)

/-- A line of its own that is edited, or deleted. -/
theorem rewritten_single {line : Line} {written : List Char} {edited : Option (List Char)}
    (single : line.lines = [written]) (isEdited : values.edit (readBack written) = edited)
    (more : List Line) :
    rewritten readBack values (line :: more) =
      edited.toList ++ rewritten readBack values more := by
  rw [rewritten, List.flatMap_cons, single, List.singleton_append, List.map_cons,
    List.filterMap_cons, isEdited]
  cases edited <;> rfl

include codePage

/-- An entry that the script looks for, whatever its value is read back as. -/
theorem windows_entry {name : List Char} {pad : Nat} {edited : Option (List Char)}
    (ascii : (entryFront name pad).all isAscii = true)
    (isEdited : ∀ more, values.edit (entryFront name pad ++ more) = edited) (rest : List Char) :
    values.edit (readBack (entryFront name pad ++ rest)) = edited := by
  rw [readBack_front codePage ascii, isEdited]

theorem windows_secret (rest : List Char) :
    values.edit (readBack (entryFront "master_secret".toList 1 ++ rest)) =
      some (entryFront "master_secret".toList 1 ++ quoted values.secret) :=
  windows_entry values codePage (by decide) (fun _ => rfl) rest

theorem windows_salt (rest : List Char) :
    values.edit (readBack (entryFront "server_salt".toList 3 ++ rest)) =
      some (entryFront "server_salt".toList 3 ++ quoted values.salt) :=
  windows_entry values codePage (by decide) (fun _ => rfl) rest

theorem windows_pbk (rest : List Char) :
    values.edit (readBack (entryFront "public_key".toList 2 ++ rest)) =
      some (entryFront "public_key".toList 2 ++ quoted values.pbk) :=
  windows_entry values codePage (by decide) (fun _ => rfl) rest

theorem windows_sid (rest : List Char) :
    values.edit (readBack (entryFront "short_ids".toList 3 ++ rest)) =
      some (entryFront "short_ids".toList 3 ++ '[' :: (quoted values.sid ++ [']'])) := by
  apply windows_entry values codePage (by decide)
  intro more
  have edited : values.edit (entryFront "short_ids".toList 3 ++ more) =
      some ("short_ids   = [\"".toList ++ values.sid ++ ['"', ']']) := rfl
  rw [edited]
  simp [entryFront, quoted, List.replicate_succ]

theorem windows_private (rest : List Char) :
    values.edit (readBack (entryFront privateKeyName 1 ++ rest)) = none :=
  windows_entry values codePage (by decide) (fun _ => rfl) rest

theorem windows_dest {dest : List Char} (ascii : dest.all isAscii = true) :
    values.edit (readBack (entryFront "dest".toList 12 ++ (quoted dest ++ noteChars none))) =
      some (entryFront "dest".toList 12 ++ (quoted dest ++ noteChars none)) := by
  have plain : (entryFront "dest".toList 12 ++ (quoted dest ++ noteChars none)).all isAscii =
      true := by
    rw [List.all_append, quoted, noteChars_none, List.append_nil, List.all_cons, List.all_append,
      ascii]
    decide
  rw [readBack_ascii codePage plain]
  exact edit_untouched values rfl

theorem windows_serverAddr :
    values.edit (readBack ('#' :: " server_addr = \"YOUR.VPS.IP:443\"".toList)) =
      some (entryFront "server_addr".toList 1 ++ quoted values.serverAddr) := by
  rw [readBack_ascii codePage (by decide)]
  rfl

theorem windows_pin :
    values.edit (readBack
        ('#' :: " cert_pin    = \"base64:...\"   # from `hydra server` output".toList)) =
      some (if values.pin = [] then
        '#' :: " cert_pin    = \"base64:...\"   # from `hydra server` output".toList
      else entryFront "cert_pin".toList 4 ++ quoted values.pin) := by
  rw [readBack_ascii codePage (by decide)]
  rfl

theorem edited_windows {dest : List Char} (ascii : dest.all isAscii = true) :
    rewritten readBack values (document base64 keys (manualInit dest)) =
      (windowsDocument base64 keys (manualInit dest) readBack values).flatMap Line.lines := by
  have split : document base64 keys (manualInit dest) = (secretsLines base64 keys).take 3 ++
      .entry "master_secret".toList 1 (.string _) _ :: .entry "server_salt".toList 3 (.string _) _ ::
      ((secretsLines base64 keys).drop 5 ++ ([epochLine (manualInit dest),
        kLine (manualInit dest)] ++ (edgeLines ++
          .entry "dest".toList 12 (.string (String.ofList dest).toList) none ::
        (tunnelLines.take 7 ++ .comment _ :: .comment _ :: (tunnelLines.drop 9 ++
        ((realityLines base64 keys).take 2 ++ .entry privateKeyName 1 (.string _) _ ::
          .entry "public_key".toList 2 (.string _) _ :: .entry "short_ids".toList 3 (.single _) _ ::
          ((realityLines base64 keys).drop 5 ++ poolLines))))))) :=
    document_split base64 keys (manualInit dest)
  have written : (String.ofList dest).toList.all isAscii = true := by
    rw [String.toList_ofList]
    exact ascii
  have commented : tunnelLines.drop 8 = .comment _ :: tunnelLines.drop 9 := rfl
  have comments : Kept ((secretsLines base64 keys).take 3) := rfl
  have format : Kept ((secretsLines base64 keys).drop 5) := rfl
  have settings : Kept [epochLine (manualInit dest), kLine (manualInit dest)] :=
    (by decide +kernel : Kept [epochLine (manualInit []), kLine (manualInit [])])
  have edge : Kept edgeLines := rfl
  have tunnel : Kept (tunnelLines.take 7) := rfl
  have blank : Kept (tunnelLines.drop 9) := rfl
  have heading : Kept ((realityLines base64 keys).take 2) := rfl
  have fingerprint : Kept ((realityLines base64 keys).drop 5) := rfl
  have entries : Kept poolLines := by decide +kernel
  have formatSame : ((secretsLines base64 keys).drop 5).map (reread readBack) =
      (secretsLines base64 keys).drop 5 := rfl
  have settingsSame : [epochLine (manualInit dest), kLine (manualInit dest)].map
      (reread readBack) = [epochLine (manualInit dest), kLine (manualInit dest)] := rfl
  have blankSame : (tunnelLines.drop 9).map (reread readBack) = tunnelLines.drop 9 := rfl
  have entriesSame : poolLines.map (reread readBack) = poolLines := rfl
  rw [split, rewritten_append, rewritten_kept values codePage comments,
    rewritten_single values rfl (windows_secret values codePage _),
    rewritten_single values rfl (windows_salt values codePage _), rewritten_append,
    rewritten_kept values codePage format, rewritten_append,
    rewritten_kept values codePage settings, rewritten_append,
    rewritten_kept values codePage edge,
    rewritten_single values rfl (windows_dest values codePage written), rewritten_append,
    rewritten_kept values codePage tunnel,
    rewritten_single values rfl (windows_serverAddr values codePage),
    rewritten_single values rfl (windows_pin values codePage), rewritten_append,
    rewritten_kept values codePage blank, rewritten_append,
    rewritten_kept values codePage heading,
    rewritten_single values rfl (windows_private values codePage _),
    rewritten_single values rfl (windows_pbk values codePage _),
    rewritten_single values rfl (windows_sid values codePage _), rewritten_append,
    rewritten_kept values codePage fingerprint, rewritten_kept values codePage entries,
    formatSame, settingsSame, blankSame, entriesSame, windowsDocument, windowsTunnel]
  have address : (manualInit dest).dest.toList = dest := String.toList_ofList
  -- Only the line of the pin is not the same whether one was typed or not.
  by_cases given : values.pin = []
  · rw [if_pos given, if_pos given, commented]
    simp [Line.lines, Literal.lines, noteChars_none, plainEntry, destLine, address,
      -String.reduceToList]
  · rw [if_neg given, if_neg given]
    simp [Line.lines, Literal.lines, noteChars_none, plainEntry, destLine, address,
      -String.reduceToList]

end Edited

/-! ## What the file means -/

def windowsRoot : Table :=
  manualNetwork base64 keys args values.toRewrite ++
    ("server_addr".toList, .string values.serverAddr) ::
      (if values.pin = [] then [] else [("cert_pin".toList, .string values.pin)])

def windowsTable : Table :=
  windowsRoot base64 keys args values ++
    [("reality".toList, .table (manualReality values.toRewrite))] ++
    [("pool".toList, .array ((defaultPool.map poolTable).map .table))]

theorem meaning_windowsDocument :
    meaning (windowsDocument base64 keys args readBack values) =
      some (windowsTable base64 keys args values) := by
  have entries : ∀ entries ∈ defaultPool.map poolTable, Distinct entries := by
    intro entries isIn
    obtain ⟨entry, _, rfl⟩ := List.mem_map.mp isIn
    exact distinct_of_names ["sni", "weight"] rfl (by decide)
  have reality : Distinct (manualReality values.toRewrite) :=
    distinct_of_names ["public_key", "short_ids", "fingerprint"] rfl (by decide)
  obtain ⟨rewrite, serverAddr, pin⟩ := values
  cases pin with
  | nil =>
      have rootKeys : (windowsRoot base64 keys args ⟨rewrite, serverAddr, []⟩).map Prod.fst =
          ["master_secret", "server_salt", "pool_format", "epoch_len", "active_k", "dest",
            "coherence_cidrs", "server_addr"].map String.toList := rfl
      have sectionKeys : (windowsRoot base64 keys args ⟨rewrite, serverAddr, []⟩ ++
          [("reality".toList, Value.table (manualReality rewrite))]).map Prod.fst =
          ["master_secret", "server_salt", "pool_format", "epoch_len", "active_k", "dest",
            "coherence_cidrs", "server_addr", "reality"].map String.toList := rfl
      apply meaning_of_sections
      · rfl
      · exact distinct_of_names _ rootKeys (by decide)
      · exact reality
      · exact entries
      · simp [defaultPool]
      · exact absent_of_names rootKeys (by decide)
      · exact absent_of_names sectionKeys (by decide)
  | cons c rest =>
      have rootKeys : (windowsRoot base64 keys args ⟨rewrite, serverAddr, c :: rest⟩).map Prod.fst =
          ["master_secret", "server_salt", "pool_format", "epoch_len", "active_k", "dest",
            "coherence_cidrs", "server_addr", "cert_pin"].map String.toList := rfl
      have sectionKeys : (windowsRoot base64 keys args ⟨rewrite, serverAddr, c :: rest⟩ ++
          [("reality".toList, Value.table (manualReality rewrite))]).map Prod.fst =
          ["master_secret", "server_salt", "pool_format", "epoch_len", "active_k", "dest",
            "coherence_cidrs", "server_addr", "cert_pin", "reality"].map String.toList := rfl
      apply meaning_of_sections
      · rfl
      · exact distinct_of_names _ rootKeys (by decide)
      · exact reality
      · exact entries
      · simp [defaultPool]
      · exact absent_of_names rootKeys (by decide)
      · exact absent_of_names sectionKeys (by decide)

def windowsRaw : RawConfig :=
  { manualRaw base64 keys args values.toRewrite with
    serverAddr := some (String.ofList values.serverAddr)
    certPin := if values.pin = [] then none else some (String.ofList values.pin) }

theorem deserialize_windowsTable :
    RawConfig.deserialize (windowsTable base64 keys args values) =
      some (windowsRaw base64 keys args values) := by
  by_cases given : values.pin = []
  · simp [RawConfig.deserialize, windowsTable, windowsRoot, manualNetwork, networkTable, orNone,
      orDefault, required, asString, lookup_toList, -String.reduceToList, -List.map_map,
      deserialize_cidrs, deserialize_pool, asUsize_toNat,
      deserialize_manualReality base64 keys args, windowsRaw, manualRaw, writtenConfig, given]
  · simp [RawConfig.deserialize, windowsTable, windowsRoot, manualNetwork, networkTable, orNone,
      orDefault, required, asString, lookup_toList, -String.reduceToList, -List.map_map,
      deserialize_cidrs, deserialize_pool, asUsize_toNat,
      deserialize_manualReality base64 keys args, windowsRaw, manualRaw, writtenConfig, given]

variable {base64 keys args}

theorem windowsDocument_formed (codePage : CodePage readBack) (lawful : base64.Lawful)
    (dest : Unescaped args.dest.toList) (epochLen : Unescaped args.epochLen.toList)
    (secret : Unescaped values.secret) (salt : Unescaped values.salt)
    (pbk : Unescaped values.pbk) (sid : Unescaped values.sid)
    (serverAddr : Unescaped values.serverAddr) (pin : Unescaped values.pin) :
    ∀ line ∈ windowsDocument base64 keys args readBack values, line.WellFormed := by
  obtain ⟨secrets, settings, reality, pool⟩ :=
    @stretches_formed base64 keys args lawful dest epochLen
  have comments := reread_formed codePage
    fun line (isIn : line ∈ (secretsLines base64 keys).take 3) =>
      secrets line (List.mem_of_mem_take isIn)
  have edges := reread_formed codePage fun line (isIn : line ∈ edgeLines) =>
    settings line (by simp [beforeKeys, isIn])
  have tunnels := reread_formed codePage fun line (isIn : line ∈ tunnelLines.take 7) =>
    settings line (by simp [beforeKeys, List.mem_of_mem_take isIn])
  have headings := reread_formed codePage
    fun line (isIn : line ∈ (realityLines base64 keys).take 2) =>
      reality line (List.mem_of_mem_take isIn)
  have lasts := reread_formed codePage
    fun line (isIn : line ∈ (realityLines base64 keys).drop 5) =>
      reality line (List.mem_of_mem_drop isIn)
  intro line isIn
  simp only [windowsDocument, windowsTunnel, List.mem_append, List.mem_cons] at isIn
  rcases isIn with comment | rfl | rfl | format | rfl | rfl | edge | rfl |
    (tunnel | rfl | pinned) | heading | rfl | rfl | last | entry
  · exact comments line comment
  · exact ⟨by decide, secret, by simp⟩
  · exact ⟨by decide, salt, by simp⟩
  · exact secrets line (List.mem_of_mem_drop format)
  · exact settings _ (by simp [beforeKeys])
  · exact settings _ (by simp [beforeKeys])
  · exact edges line edge
  · exact settings _ (by simp [beforeKeys])
  · exact tunnels line tunnel
  · exact plainEntry_formed (by decide) serverAddr
  · split at pinned
    · exact settings line (by simp [beforeKeys, List.mem_of_mem_drop pinned])
    · rcases List.mem_cons.mp pinned with rfl | blank
      · exact plainEntry_formed (by decide) pin
      · exact settings line (by simp [beforeKeys, List.mem_of_mem_drop blank])
  · exact headings line heading
  · exact ⟨by decide, pbk, by simp⟩
  · exact ⟨by decide, sid, by simp⟩
  · exact lasts line last
  · exact pool line entry

end File

/-! ## The client's configuration -/

section Client

variable {base64 : Engine} {keys : Generated} {args : InitArgs}

/-- The values of a server's summary as they go into the file, with the pin. -/
def windowsRewrite (base64 : Engine) (keys : Generated) (dest : List Char)
    (pin : Option (Vector UInt8 32)) : WindowsRewrite :=
  { summaryRewrite base64 keys with
    serverAddr := dest
    pin := (pin.map fun bytes => secretText base64 bytes.toList).getD [] }

/-- The configuration of a client that is set up by hand on Windows. -/
def windowsConfig (server : HydraConfig) (dest : List Char) (pin : Option (Vector UInt8 32)) :
    HydraConfig :=
  { manualConfig server dest with serverAddr := some (String.ofList dest), certPin := pin }

theorem withSchemeLike_secretText (bytes : Bytes) :
    withSchemeLike (secretText base64 bytes) = secretText base64 bytes := if_pos rfl

theorem withoutSchemeLike_secretText (bytes : Bytes) :
    withoutSchemeLike (secretText base64 bytes) = base64.encode bytes := if_pos rfl

/-- No symbol is a colon, so that what the server prints is taken to have no scheme. -/
theorem withSchemeLike_encode (lawful : base64.Lawful) (bytes : Bytes) :
    withSchemeLike (base64.encode bytes) = secretText base64 bytes := by
  have noColon : alphabet.all (fun c => c.toLower != ':') = true := by
    unfold alphabet
    rw [String.toList_ofList]
    decide
  have unlike : ':' ∉ lowered (base64.encode bytes) := by
    intro isIn
    obtain ⟨c, isSymbol, isColon⟩ := List.mem_map.mp isIn
    rcases lawful.symbols bytes c isSymbol with symbol | rfl
    · have other := List.all_eq_true.mp noColon c symbol
      rw [isColon] at other
      contradiction
    · exact absurd isColon (by decide)
  refine if_neg ?_
  intro within
  obtain ⟨rest, isRest⟩ := List.isPrefixOf_iff_prefix.mp within
  refine unlike (isRest ▸ List.mem_append_left _ ?_)
  decide

theorem windowsAnswers_rewrite (lawful : base64.Lawful) (addr p : List Char)
    (pin : Option (Vector UInt8 32))
    (shown : ∀ bytes, pin = some bytes → base64.encode bytes.toList ≠ []) :
    ((generatedValues base64 keys).windowsAnswers base64 addr p pin).rewrite =
      windowsRewrite base64 keys (addr ++ ':' :: p) pin := by
  have kept : (if (pin.map fun bytes => base64.encode bytes.toList).getD [] = [] then []
      else withSchemeLike ((pin.map fun bytes => base64.encode bytes.toList).getD [])) =
        (pin.map fun bytes => secretText base64 bytes.toList).getD [] := by
    cases pin with
    | none => rfl
    | some bytes =>
        rw [Option.map_some, Option.getD_some, if_neg (shown bytes rfl),
          withSchemeLike_encode lawful]
        rfl
  simp only [WindowsAnswers.rewrite, ServerSummary.windowsAnswers, ServerSummary.answers,
    generatedValues, withSchemeLike_secretText, withoutSchemeLike_secretText]
  rw [windowsRewrite, ← kept]
  rfl

theorem windowsRaw_loads (lawful : base64.Lawful) (clientKeys : Generated) (dest : List Char)
    (pin : Option (Vector UInt8 32)) {server : HydraConfig}
    (loads : (writtenConfig base64 keys args).Loads base64 server)
    (back : LoadsBack keys args server) :
    (windowsRaw base64 clientKeys (manualInit dest) (windowsRewrite base64 keys dest pin)).Loads
      base64 (windowsConfig server dest pin) := by
  have kept := manualRaw_loads lawful clientKeys dest loads back
  refine ⟨kept.format, kept.secret, kept.salt, kept.activeK, kept.epochLen, kept.masterList,
    kept.reality, ?_, kept.dest, kept.coherenceCidrs, rfl⟩
  cases pin with
  | none => exact Option.Rel.none
  | some bytes =>
      have decoded : decodePin base64 (String.ofList (secretText base64 bytes.toList)) =
          .ok bytes :=
        bind_ok_iff.mpr ⟨_, decodeB64_secretText lawful _ _, exactArray_ok_iff.mpr rfl⟩
      exact Option.Rel.some decoded

theorem windowsRewrite_pin (lawful : base64.Lawful) (dest : List Char)
    (pin : Option (Vector UInt8 32)) : Unescaped (windowsRewrite base64 keys dest pin).pin := by
  cases pin with
  | none =>
      intro c isIn
      exact absurd isIn List.not_mem_nil
  | some bytes => exact secretText_unescaped lawful _

/-- What a parser makes of a file that `Set-Content` has written is what it makes of the
text, whichever end the line has and whether there is a mark in front. -/
def ReadsSetContent (toml windows : Parser) : Prop :=
  ∀ (marked : Bool) (text : List Char) (table : Table), '\r' ∉ text →
    text.head? ≠ some '\uFEFF' →
      (windows.parse (setContent marked text) = .ok table ↔
        toml.parse (text ++ ['\n']) = .ok table)

theorem fromTomlStr_windows {toml windows : Parser} (lawful : base64.Lawful)
    (conforms : toml.Conforms) (reads : ReadsSetContent toml windows)
    {readBack : List Char → List Char} (codePage : CodePage readBack) (marked : Bool)
    (clientKeys : Generated) {dest : List Char} (plain : Unescaped dest)
    (pin : Option (Vector UInt8 32)) {server : HydraConfig}
    (loads : (writtenConfig base64 keys args).Loads base64 server)
    (back : LoadsBack keys args server) :
    HydraConfig.fromTomlStr windows base64 (String.ofList (setContent marked
        (['\n'].intercalate ((windowsDocument base64 clientKeys (manualInit dest)
          readBack (windowsRewrite base64 keys dest pin)).flatMap Line.lines)))) =
      .ok (windowsConfig server dest pin) := by
  have formed : ∀ line ∈ windowsDocument base64 clientKeys (manualInit dest)
      readBack (windowsRewrite base64 keys dest pin), line.WellFormed := by
    apply windowsDocument_formed
    · exact codePage
    · exact lawful
    · exact manualInit_dest plain
    · exact defaultArgs_epochLen
    · exact secretText_unescaped lawful _
    · exact secretText_unescaped lawful _
    · intro c isIn
      exact secretText_unescaped lawful _ c (List.mem_append_right _ isIn)
    · exact hex_unescaped _
    · exact plain
    · exact windowsRewrite_pin lawful dest pin
  have fits : ∀ value ∈ (windowsDocument base64 clientKeys (manualInit dest)
      readBack (windowsRewrite base64 keys dest pin)).flatMap Line.integers,
      toml.Represents value := by
    have integers : (windowsDocument base64 clientKeys (manualInit dest)
        readBack (windowsRewrite base64 keys dest pin)).flatMap Line.integers = [6] := by
      cases pin <;> rfl
    rw [integers]
    exact List.forall_mem_singleton.mpr (conforms.represents 6 (by decide))
  have parsed := conforms.reads formed fits (meaning_windowsDocument base64 clientKeys
    (manualInit dest) readBack (windowsRewrite base64 keys dest pin))
  obtain ⟨front, rest, isDocument⟩ : ∃ front rest, (windowsDocument base64 clientKeys
      (manualInit dest) readBack (windowsRewrite base64 keys dest pin)).flatMap Line.lines =
        ('#' :: front) :: rest := ⟨_, _, rfl⟩
  have whole : ['\n'].intercalate ((windowsDocument base64 clientKeys (manualInit dest)
      readBack (windowsRewrite base64 keys dest pin)).flatMap Line.lines) ++ ['\n'] =
      render (windowsDocument base64 clientKeys (manualInit dest)
        readBack (windowsRewrite base64 keys dest pin)) := by
    rw [Lib.Toml.render, ← Grammar.unlines, unlines_intercalate]
    rw [isDocument]
    exact List.cons_ne_nil _ _
  rw [HydraConfig.fromTomlStr_ok_iff, String.toList_ofList]
  refine ⟨_, _, (reads marked _ _ ?_ ?_).mpr (whole ▸ parsed), deserialize_windowsTable ..,
    windowsRaw_loads lawful clientKeys dest pin loads back⟩
  · intro isIn
    exact not_mem_render rfl rfl (by decide) formed (whole ▸ List.mem_append_left _ isIn)
  · rw [isDocument]
    cases rest <;> simp [List.intercalate]

/-- With the values of a server's summary the script comes to its end. -/
theorem newClientConfigManual_summary (lawful : base64.Lawful)
    {readBack : List Char → List Char} (codePage : CodePage readBack) (clientKeys : Generated)
    (marked : Bool) {addr p : List Char} (typed : addr ≠ []) (plain : Unescaped (addr ++ ':' :: p))
    (ascii : (addr ++ ':' :: p).all isAscii = true) (pin : Option (Vector UInt8 32))
    (shown : ∀ bytes, pin = some bytes → base64.encode bytes.toList ≠ []) :
    newClientConfigManual base64 readBack clientKeys marked
        ((generatedValues base64 keys).windowsAnswers base64 addr p pin) =
      some (setContent marked (['\n'].intercalate ((windowsDocument base64 clientKeys
        (manualInit (addr ++ ':' :: p)) readBack
          (windowsRewrite base64 keys (addr ++ ':' :: p) pin)).flatMap Line.lines))) := by
  have given : ¬(addr = [] ∨ secretText base64 keys.masterSecret.privateKey.toList = [] ∨
      secretText base64 keys.serverSalt = [] ∨
      secretText base64 keys.reality.publicKey.toList = []) := by
    rintro (missing | missing | missing | missing)
    · exact typed missing
    · exact secretText_ne_nil _ missing
    · exact secretText_ne_nil _ missing
    · exact secretText_ne_nil _ missing
  have formed : ∀ line ∈ document base64 clientKeys (manualInit (addr ++ ':' :: p)),
      line.WellFormed :=
    document_wellFormed lawful (manualInit_dest plain) defaultArgs_epochLen
  have edited := @edited_windows base64 clientKeys readBack
    (windowsRewrite base64 keys (addr ++ ':' :: p) pin) codePage (addr ++ ':' :: p) ascii
  rw [rewritten, ← fileLines_render formed, ← renderConfig_toList] at edited
  rw [newClientConfigManual, windowsAnswers_rewrite lawful addr p pin shown]
  refine (if_neg given).trans ?_
  exact congrArg (fun lines => some (setContent marked (['\n'].intercalate lines))) edited

end Client

/-! ## A parser that reads such files -/

def withoutMark : List Char → List Char
  | [] => []
  | c :: rest => if c = '\uFEFF' then rest else c :: rest

/-- A parser of what is left without a mark and carriage returns. -/
def onWindows (toml : Parser) : Parser :=
  { toml with parse := fun text => toml.parse ((withoutMark text).filter (· ≠ '\r')) }

theorem withoutMark_of_head {text : List Char} (unmarked : text.head? ≠ some '\uFEFF') :
    withoutMark text = text := by
  cases text with
  | nil => rfl
  | cons c rest =>
      refine if_neg ?_
      intro same
      exact unmarked (congrArg some same)

theorem onWindows_reads (toml : Parser) : ReadsSetContent toml (onWindows toml) := by
  intro marked text table noReturn unmarked
  have kept : text.filter (· ≠ '\r') = text := by
    rw [List.filter_eq_self]
    intro c isIn
    rw [decide_eq_true_eq]
    rintro rfl
    exact noReturn isIn
  have left : withoutMark (setContent marked text) = text ++ ['\r', '\n'] := by
    cases marked with
    | true => rfl
    | false =>
        have unmarkedLine : (text ++ ['\r', '\n']).head? ≠ some '\uFEFF' := by
          cases text with
          | nil => decide
          | cons c rest => exact unmarked
        exact withoutMark_of_head unmarkedLine
  have same : (withoutMark (setContent marked text)).filter (· ≠ '\r') = text ++ ['\n'] := by
    rw [left, List.filter_append, kept]
    rfl
  rw [onWindows]
  dsimp only
  rw [same]

/-- Set up by hand on Windows from a server's summary with an address in ASCII, a client
has the server's configuration without its private key, with its own address to dial and
`init`'s defaults as on other systems, whatever the code page of the system; given the pin
it takes no certificate but those with it. -/
theorem windows_client_pins_exit_node {Draw K : Type} (sha256 : Sha256) (base64 : Engine)
    (lawful : base64.Lawful) (toml windows : Parser) (conforms : toml.Conforms)
    (reads : ReadsSetContent toml windows) (readBack : List Char → List Char)
    (codePage : CodePage readBack) (serverKeys clientKeys : Generated) (files : Files)
    (args : InitArgs) (text : String) (produced : Produces base64 serverKeys files args text)
    (writable : Writable toml args) (marked : Bool) (addr p : List Char) (typed : addr ≠ [])
    (plain : Unescaped (addr ++ ':' :: p)) (ascii : (addr ++ ':' :: p).all isAscii = true)
    (pin : Option (Vector UInt8 32))
    (shown : ∀ bytes, pin = some bytes → base64.encode bytes.toList ≠ []) :
    ∃ server written,
      HydraConfig.fromTomlStr toml base64 text = .ok server ∧
      newClientConfigManual base64 readBack clientKeys marked
        ((printServerSummary text.toList).windowsAnswers base64 addr p pin) = some written ∧
      HydraConfig.fromTomlStr windows base64 (String.ofList written) =
        .ok (windowsConfig server (addr ++ ':' :: p) pin) ∧
      ∀ (setup : PipelineSetup Draw K) (tunnel : TunnelClient),
        setup.cfg = windowsConfig server (addr ++ ':' :: p) pin →
        setup.buildTunnel = some tunnel →
          tunnel.serverAddr = String.ofList (addr ++ ':' :: p) ∧
          ∀ bytes, pin = some bytes → ∀ flight serverName now,
            handshakeCallbacks sha256 tunnel.verifier serverName now flight = .ok () ↔
              sha256 flight.endEntity = bytes := by
  obtain ⟨server, loaded, loads, back⟩ := produced_loads lawful produced conforms writable
  have summary := produced_summary lawful produced writable.dest writable.epochLen
  refine ⟨server, _, loaded, ?_, fromTomlStr_windows lawful conforms reads codePage marked
    clientKeys plain pin loads back, ?_⟩
  · rw [summary]
    exact newClientConfigManual_summary lawful codePage clientKeys marked typed plain ascii pin
      shown
  · intro setup tunnel isCfg built
    obtain ⟨isAddr, isPin, -⟩ := buildTunnel_fields built
    rw [isCfg] at isAddr isPin
    refine ⟨(Option.some.inj isAddr).symm, ?_⟩
    intro bytes isBytes flight serverName now
    exact handshakeCallbacks_ok_iff sha256 tunnel.verifier bytes (isPin.trans isBytes) ..

/-- What code page 1252 has in the place of the 32 control characters from 128 on. -/
def windows1252Marks : List Nat :=
  [0x20AC, 0x81, 0x201A, 0x192, 0x201E, 0x2026, 0x2020, 0x2021, 0x2C6, 0x2030, 0x160, 0x2039,
    0x152, 0x8D, 0x17D, 0x8F, 0x90, 0x2018, 0x2019, 0x201C, 0x201D, 0x2022, 0x2013, 0x2014,
    0x2DC, 0x2122, 0x161, 0x203A, 0x153, 0x9D, 0x17E, 0x178]

def windows1252 (byte : UInt8) : Char :=
  let code := byte.toNat
  Char.ofNat (if 0x80 ≤ code ∧ code < 0xA0 then windows1252Marks.getD (code - 0x80) code else code)

/-- The bytes of a line in UTF-8, each taken for a character of its own. -/
def readWindows1252 (line : List Char) : List Char :=
  line.flatMap fun c => (String.utf8EncodeChar c).map windows1252

theorem utf8EncodeChar_ascii {c : Char} (ascii : isAscii c = true) :
    (String.utf8EncodeChar c).map windows1252 = [c] := by
  have small : c.toNat < 128 := of_decide_eq_true ascii
  have one : String.utf8EncodeChar c = [UInt8.ofNat c.toNat] := if_pos (by
    show c.toNat ≤ 0x7F
    omega)
  have code : (UInt8.ofNat c.toNat).toNat = c.toNat := by
    rw [UInt8.toNat_ofNat']
    omega
  rw [one, List.map_singleton, windows1252, code, if_neg (by omega), Char.ofNat_toNat]

/-- Other characters take bytes from 128 on, the first of them one from 192 on. -/
theorem utf8EncodeChar_foreign {c : Char} (foreign : isAscii c = false) :
    ∃ byte more, String.utf8EncodeChar c = byte :: more ∧ 0xC0 ≤ byte.toNat ∧
      ∀ b ∈ byte :: more, 0x80 ≤ b.toNat := by
  have large : ¬c.toNat < 128 := of_decide_eq_false foreign
  have notOne : ¬c.val.toNat ≤ 0x7F := by
    show ¬c.toNat ≤ 0x7F
    omega
  rw [String.utf8EncodeChar, if_neg notOne]
  split
  · refine ⟨_, _, rfl, ?_, ?_⟩ <;> simp [UInt8.toNat_ofNat'] <;> omega
  · split
    · refine ⟨_, _, rfl, ?_, ?_⟩ <;> simp [UInt8.toNat_ofNat'] <;> omega
    · refine ⟨_, _, rfl, ?_, ?_⟩ <;> simp [UInt8.toNat_ofNat'] <;> omega

theorem windows1252_solid : ∀ code < 256, 0xC0 ≤ code →
    isWhitespace (windows1252 (UInt8.ofNat code)) = false ∧
      (windows1252 (UInt8.ofNat code)).isAlpha = false := by
  decide +kernel

theorem windows1252_printable : ∀ code < 256, 0x80 ≤ code →
    isPrintable (windows1252 (UInt8.ofNat code)) = true := by
  decide +kernel

theorem readWindows1252_codePage : CodePage readWindows1252 where
  nil := rfl
  ascii c rest ascii := by
    rw [readWindows1252, List.flatMap_cons, utf8EncodeChar_ascii ascii]
    rfl
  foreign c rest foreign _ := by
    obtain ⟨byte, more, isBytes, first, -⟩ := utf8EncodeChar_foreign foreign
    have solid := windows1252_solid byte.toNat byte.toNat_lt first
    rw [UInt8.ofNat_toNat] at solid
    intro d isHead
    rw [readWindows1252, List.flatMap_cons, isBytes, List.map_cons, List.cons_append,
      List.head?_cons, Option.mem_some_iff] at isHead
    exact isHead ▸ solid
  printable text printable := by
    intro d isIn
    obtain ⟨c, isChar, inChar⟩ := List.mem_flatMap.mp isIn
    cases ascii : isAscii c with
    | true =>
        rw [utf8EncodeChar_ascii ascii, List.mem_singleton] at inChar
        exact inChar ▸ printable c isChar
    | false =>
        obtain ⟨byte, more, isBytes, -, all⟩ := utf8EncodeChar_foreign ascii
        rw [isBytes] at inChar
        obtain ⟨b, isByte, rfl⟩ := List.mem_map.mp inChar
        have read := windows1252_printable b.toNat b.toNat_lt (all b isByte)
        rwa [UInt8.ofNat_toNat] at read

theorem pinned_windows_client_loads :
    ∃ server written client,
      HydraConfig.fromTomlStr reader standard (renderConfig standard zeroKeys vpsArgs).1 =
        .ok server ∧
      newClientConfigManual standard readWindows1252 zeroKeys true ((printServerSummary
        (renderConfig standard zeroKeys vpsArgs).1.toList).windowsAnswers standard
          "203.0.113.7".toList "443".toList (some (Vector.replicate _ 7))) = some written ∧
      HydraConfig.fromTomlStr (onWindows reader) standard (String.ofList written) = .ok client ∧
      client.certPin = some (Vector.replicate _ 7) ∧
      client.serverAddr = some "203.0.113.7:443" := by
  have shown : ∀ bytes : Vector UInt8 32, some (Vector.replicate 32 7) = some bytes →
      standard.encode bytes.toList ≠ [] := by
    rintro bytes same
    cases same
    exact List.cons_ne_nil _ _
  obtain ⟨server, written, loaded, isWritten, reads, -⟩ :=
    @windows_client_pins_exit_node Nat Nat (fun _ => Vector.replicate _ 0) standard
      standard_lawful reader (onWindows reader) reader_conforms (onWindows_reads reader)
      readWindows1252 readWindows1252_codePage zeroKeys zeroKeys emptyDirectory vpsArgs _
      vpsArgs_produces vpsArgs_writable true "203.0.113.7".toList "443".toList (by decide)
      (by decide) (by decide) (some (Vector.replicate 32 7)) shown
  exact ⟨server, written, _, loaded, isWritten, reads, rfl, rfl⟩

/-! ## From a bundle -/

/-- `-match '^\s*private_key'`, where `lower` is the culture's way with capitals. -/
def startsPrivateKeyLike (lower : Char → Char) (line : List Char) : Bool :=
  privateKeyName.isPrefixOf ((line.dropWhile isWhitespace).map lower)

/-- `Convert-FromBundle`: blanks around the token are trimmed. -/
def convertFromBundle (tool : Engine) (token : List Char) : Option String :=
  decodeBundle tool (trim isWhitespace token)

/-- The file that `New-ClientConfigFromBundle` leaves. -/
def newClientConfigFromBundle (tool : Engine) (lower : Char → Char) (marked : Bool)
    (token : List Char) : Option (List Char) :=
  (convertFromBundle tool token).map fun toml =>
    setContent marked (['\n'].intercalate
      ((toml.toList.splitOn '\n').filter fun line => !startsPrivateKeyLike lower line))

section Bundle

variable {tool : Engine} {lower : Char → Char}

theorem convertFromBundle_made (toolLawful : tool.Lawful) (serverCfg : String) :
    convertFromBundle tool (commandSubstitution (makeBundle tool serverCfg)) =
      some (String.ofList (clientToml serverCfg.toList)) := by
  have solid : ∀ c ∈ commandSubstitution (makeBundle tool serverCfg),
      isWhitespace c = false := by
    intro c isIn
    rw [commandSubstitution_makeBundle toolLawful] at isIn
    rcases List.mem_append.mp isIn with inScheme | inCode
    · have plain : bundleScheme.all (fun c => !isWhitespace c) = true := by decide
      simpa using List.all_eq_true.mp plain c inScheme
    · rcases toolLawful.symbols _ c inCode with symbol | rfl
      · exact (alphabet_plain c symbol).2
      · rfl
  rw [convertFromBundle, trim_eq_self solid, decode_makeBundle toolLawful]

/-- What the filter leaves of a text is of the text. -/
theorem mem_clientToml {text : List Char} (noNul : Char.ofNat 0 ∉ text) {c : Char}
    (isIn : c ∈ clientToml text) : c ∈ text ++ ['\n'] := by
  have inside : c ∈ clientToml text ++ ['\n'] := List.mem_append_left _ isIn
  rw [clientToml_newline noNul] at inside
  obtain ⟨line, isLine, inLine⟩ := List.mem_flatMap.mp inside
  rw [← unlines_splitOn]
  rcases mem_trimmedLines isLine with kept | rfl
  · exact List.mem_flatMap.mpr ⟨line, (List.mem_filter.mp kept).1, inLine⟩
  · rw [List.nil_append, List.mem_singleton] at inLine
    rw [inLine, unlines_splitOn]
    exact List.mem_append_right _ (List.mem_singleton_self _)

/-- Where capitals make no difference, the second filter has nothing left to take. -/
theorem filter_clientToml {text : List Char} (noNul : Char.ofNat 0 ∉ text)
    (sameCase : ∀ line ∈ text.splitOn '\n', startsPrivateKeyLike lower line = true →
      startsPrivateKey line = true) :
    ((clientToml text).splitOn '\n').filter (fun line => !startsPrivateKeyLike lower line) =
      (clientToml text).splitOn '\n' := by
  rw [List.filter_eq_self, clientToml_lines noNul]
  intro line isIn
  rcases mem_trimmedLines isIn with kept | rfl
  · obtain ⟨isLine, passed⟩ := List.mem_filter.mp kept
    cases like : startsPrivateKeyLike lower line with
    | false => rfl
    | true =>
        rw [passes, sameCase line isLine like] at passed
        contradiction
  · rfl

end Bundle

/-- From one bundle the two scripts install files that load alike, if no line begins
with the private key's name in capitals and none ends as on Windows. -/
theorem both_scripts_install_alike (tool : Engine) (toolLawful : tool.Lawful)
    (toml windows : Parser) (reads : ReadsSetContent toml windows) (lower : Char → Char)
    (marked : Bool)
    (serverCfg : String) (noNul : Char.ofNat 0 ∉ serverCfg.toList)
    (noReturn : '\r' ∉ serverCfg.toList) (noMark : '\uFEFF' ∉ serverCfg.toList)
    (sameCase : ∀ line ∈ serverCfg.toList.splitOn '\n', startsPrivateKeyLike lower line = true →
      startsPrivateKey line = true) :
    ∃ installed written,
      clientFromBundle tool (commandSubstitution (makeBundle tool serverCfg)) =
        some installed ∧
      newClientConfigFromBundle tool lower marked (commandSubstitution (makeBundle tool serverCfg)) =
        some written ∧
      ∀ base64 cfg, HydraConfig.fromTomlStr windows base64 (String.ofList written) = .ok cfg ↔
        HydraConfig.fromTomlStr toml base64 (String.ofList installed) = .ok cfg := by
  have foreign : ∀ c, c ≠ '\n' → c ∉ serverCfg.toList → c ∉ clientToml serverCfg.toList := by
    intro c other outside isIn
    rcases List.mem_append.mp (mem_clientToml noNul isIn) with inside | newline
    · exact outside inside
    · exact other (List.mem_singleton.mp newline)
  have unmarked : (clientToml serverCfg.toList).head? ≠ some '\uFEFF' := by
    intro isHead
    exact foreign _ (by decide) noMark (List.mem_of_head? isHead)
  have parsed := fun table => reads marked (clientToml serverCfg.toList) table
    (foreign _ (by decide) noReturn) unmarked
  have isInstalled : clientFromBundle tool (commandSubstitution (makeBundle tool serverCfg)) =
      some (clientToml serverCfg.toList ++ ['\n']) := by
    have made := passOn_eq toolLawful serverCfg.toList
    rw [passOn, String.ofList_toList] at made
    exact made
  have isWritten : newClientConfigFromBundle tool lower marked
      (commandSubstitution (makeBundle tool serverCfg)) =
        some (setContent marked (clientToml serverCfg.toList)) := by
    have joined : ['\n'].intercalate ((clientToml serverCfg.toList).splitOn '\n') =
        clientToml serverCfg.toList := List.intercalate_splitOn '\n'
    rw [newClientConfigFromBundle, convertFromBundle_made toolLawful, Option.map_some,
      String.toList_ofList, filter_clientToml noNul sameCase, joined]
  refine ⟨_, _, isInstalled, isWritten, ?_⟩
  intro base64 cfg
  rw [HydraConfig.fromTomlStr_ok_iff, HydraConfig.fromTomlStr_ok_iff, String.toList_ofList,
    String.toList_ofList]
  simp only [parsed]

theorem bare_key_bundle_installs_alike :
    ∃ installed written,
      clientFromBundle standard (commandSubstitution (makeBundle standard
        (sampleText bareKeyLine))) = some installed ∧
      newClientConfigFromBundle standard Char.toLower true (commandSubstitution (makeBundle standard
        (sampleText bareKeyLine))) = some written ∧
      (HydraConfig.fromTomlStr (onWindows lineParser) standard (String.ofList written) =
          .ok (withoutPrivateKey sampleConfig) ↔
        HydraConfig.fromTomlStr lineParser standard (String.ofList installed) =
          .ok (withoutPrivateKey sampleConfig)) := by
  have noNul : Char.ofNat 0 ∉ (sampleText bareKeyLine).toList := by
    rw [sampleText, String.toList_ofList]
    decide +kernel
  have noReturn : '\r' ∉ (sampleText bareKeyLine).toList := by
    rw [sampleText, String.toList_ofList]
    decide +kernel
  have noMark : '\uFEFF' ∉ (sampleText bareKeyLine).toList := by
    rw [sampleText, String.toList_ofList]
    decide +kernel
  have sameCase : ∀ line ∈ (sampleText bareKeyLine).toList.splitOn '\n',
      startsPrivateKeyLike Char.toLower line = true → startsPrivateKey line = true := by
    rw [sampleText, String.toList_ofList]
    decide +kernel
  obtain ⟨installed, written, isInstalled, isWritten, alike⟩ :=
    both_scripts_install_alike standard standard_lawful lineParser (onWindows lineParser)
      (onWindows_reads lineParser) Char.toLower true (sampleText bareKeyLine) noNul noReturn noMark
      sameCase
  exact ⟨installed, written, isInstalled, isWritten, alike standard _⟩

end RealityHydra.Setup
