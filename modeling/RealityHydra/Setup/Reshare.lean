import RealityHydra.Setup.ClientSafe

/-!
# Passing a bundle on

`client_from_bundle` installs what the token decodes to, and the file it writes can
be bundled again.  The filter has nothing left to take and the newlines at the end
come and go, so that every machine down the line gets the same token and the same
file.
-/

set_option autoImplicit false

namespace RealityHydra.Setup

open RealityHydra.Lib.Base64
open RealityHydra.Lib.ByteCodec
open RealityHydra.Lib.Toml (Table Parser)
open RealityHydra.Lib.TomlDocument
open RealityHydra.Lib.TomlGrammar
open RealityHydra.Lib.TomlGrammar.Grammar (trimmedLines trimmedLines_concat trimmedLines_concat_nil)
open RealityHydra.Lib.Text (not_mem_of_mem_splitOn)
open RealityHydra.PoolEngine

/-! ## The script -/

/-- The file that `client_from_bundle` writes. -/
def clientFromBundle (tool : Engine) (token : List Char) : Option (List Char) :=
  (decodeBundle tool token).map fun decoded => commandSubstitution decoded.toList ++ ['\n']

/-- The bundle of a file is made on one machine and pasted on another. -/
def passOn (tool : Engine) (cfg : List Char) : Option (List Char) :=
  clientFromBundle tool (commandSubstitution (makeBundle tool (String.ofList cfg)))

/-- What the last of so many machines has. -/
def passedOn (tool : Engine) : Nat → List Char → Option (List Char)
  | 0, cfg => some cfg
  | hops + 1, cfg => (passOn tool cfg).bind (passedOn tool hops)

/-! ## Newlines at the end -/

section Newlines

variable {lines : List (List Char)} {text : List Char}

theorem mem_trimmedLines {line : List Char} (isIn : line ∈ trimmedLines lines) :
    line ∈ lines ∨ line = [] := by
  rw [trimmedLines] at isIn
  split at isIn
  · exact Or.inr (List.mem_singleton.mp isIn)
  · exact Or.inl ((List.rdropWhile_prefix _ lines).subset isIn)

theorem unlines_intercalate {pieces : List (List Char)} (nonempty : pieces ≠ []) :
    Grammar.unlines pieces = ['\n'].intercalate pieces ++ ['\n'] := by
  induction pieces with
  | nil => exact absurd rfl nonempty
  | cons piece rest ih =>
      cases rest with
      | nil => simp [Grammar.unlines, List.intercalate]
      | cons next rest =>
          have onward := ih (List.cons_ne_nil _ _)
          rw [Grammar.unlines, List.flatMap_cons, ← Grammar.unlines, onward]
          simp [List.intercalate]

theorem unlines_splitOn (text : List Char) :
    Grammar.unlines (text.splitOn '\n') = text ++ ['\n'] := by
  have joined : ['\n'].intercalate (text.splitOn '\n') = text := List.intercalate_splitOn '\n'
  rw [unlines_intercalate (List.splitOn_ne_nil _ _), joined]

theorem splitOn_newline (text : List Char) :
    (text ++ ['\n']).splitOn '\n' = text.splitOn '\n' ++ [[]] := by
  have unbroken : ∀ line ∈ text.splitOn '\n', '\n' ∉ line := fun line => not_mem_of_mem_splitOn
  have pieces := Lib.Toml.splitOn_unlines unbroken []
  rw [List.append_nil] at pieces
  rw [← unlines_splitOn, Grammar.unlines, pieces]
  rfl

theorem fileLines_newline (text : List Char) : fileLines (text ++ ['\n']) = text.splitOn '\n' := by
  rw [fileLines, splitOn_newline, if_pos (by simp), List.dropLast_concat]

/-- Blank lines at the end do not count. -/
theorem trimmedLines_blanks {last : List Char} (someChar : last ≠ []) (blanks : Nat) :
    trimmedLines (lines ++ [last] ++ List.replicate blanks []) = lines ++ [last] := by
  induction blanks with
  | zero => rw [List.replicate_zero, List.append_nil, trimmedLines_concat lines someChar]
  | succ blanks ih =>
      rw [List.replicate_succ', ← List.append_assoc, trimmedLines_concat_nil, ih]

end Newlines

/-! ## The second bundle -/

section Again

variable {tool : Engine} {text : List Char}

theorem passes_of_mem_kept {line : List Char} (isIn : line ∈ keptLines text) :
    passes line = true := by
  rcases mem_trimmedLines isIn with kept | rfl
  · exact (List.mem_filter.mp kept).2
  · rfl

theorem nul_of_mem_pieces (noNul : Char.ofNat 0 ∉ text) :
    ∀ line ∈ text.splitOn '\n', Char.ofNat 0 ∉ line := by
  intro line isLine inLine
  have inText : Char.ofNat 0 ∈ text ++ ['\n'] := by
    rw [← unlines_splitOn]
    exact List.mem_flatMap.mpr ⟨line, isLine, List.mem_append_left _ inLine⟩
  rcases List.mem_append.mp inText with inside | newline
  · exact noNul inside
  · exact absurd (List.mem_singleton.mp newline) (by decide)

theorem clientToml_lines (noNul : Char.ofNat 0 ∉ text) :
    (clientToml text).splitOn '\n' = keptLines text :=
  clientToml_pieces (nul_of_mem_pieces noNul)

/-- The file that is installed, line by line. -/
theorem clientToml_newline (noNul : Char.ofNat 0 ∉ text) :
    clientToml text ++ ['\n'] = Grammar.unlines (keptLines text) := by
  rw [← clientToml_lines noNul, unlines_splitOn]

theorem nul_not_mem_commandSubstitution (output : List Char) :
    Char.ofNat 0 ∉ commandSubstitution output := by
  intro isIn
  have kept := (List.rdropWhile_prefix _ _).subset isIn
  simp at kept

theorem commandSubstitution_of_noNul {output : List Char} (noNul : Char.ofNat 0 ∉ output) :
    commandSubstitution output = output.rdropWhile (· = '\n') := by
  have kept : output.filter (· ≠ Char.ofNat 0) = output := by
    rw [List.filter_eq_self]
    intro c isIn
    rw [decide_eq_true_eq]
    rintro rfl
    exact noNul isIn
  rw [commandSubstitution, kept]

theorem commandSubstitution_idempotent (output : List Char) :
    commandSubstitution (commandSubstitution output) = commandSubstitution output := by
  rw [commandSubstitution_of_noNul (nul_not_mem_commandSubstitution output), commandSubstitution,
    List.rdropWhile_idempotent]

theorem nul_not_mem_installed (text : List Char) : Char.ofNat 0 ∉ clientToml text ++ ['\n'] := by
  intro isIn
  rcases List.mem_append.mp isIn with inside | newline
  · exact nul_not_mem_commandSubstitution _ inside
  · exact absurd (List.mem_singleton.mp newline) (by decide)

theorem installed_keyless (noNul : Char.ofNat 0 ∉ text) :
    ∀ line ∈ fileLines (clientToml text ++ ['\n']), startsPrivateKey line = false := by
  intro line isIn
  rw [fileLines_newline, clientToml_lines noNul] at isIn
  simpa [passes] using passes_of_mem_kept isIn

/-- What is installed bundles to what it was installed from. -/
theorem clientToml_installed (noNul : Char.ofNat 0 ∉ text) :
    clientToml (clientToml text ++ ['\n']) = clientToml text := by
  have kept : (fileLines (clientToml text ++ ['\n'])).filter passes =
      (clientToml text).splitOn '\n' := by
    rw [fileLines_newline, clientToml_lines noNul, List.filter_eq_self]
    exact fun line => passes_of_mem_kept
  have trimmed : (clientToml text).rdropWhile (· = '\n') = clientToml text :=
    List.rdropWhile_idempotent _ _
  calc clientToml (clientToml text ++ ['\n'])
      = commandSubstitution (Grammar.unlines ((clientToml text).splitOn '\n')) := by
        rw [clientToml, grepInverted, kept]
    _ = (clientToml text ++ ['\n']).rdropWhile (· = '\n') := by
        rw [unlines_splitOn, commandSubstitution_of_noNul (nul_not_mem_installed text)]
    _ = clientToml text := by
        rw [List.rdropWhile_concat_pos _ _ _ (by simp), trimmed]

end Again

/-! ## The newline that `printf` adds -/

section Reading

variable {grammar : Grammar} {text : List Char} {reading : Reading}

theorem leaves_of_concat_blank (hidden : Key → Bool) (expressions : List Expression) :
    Leaves hidden (expressions ++ [.blank]) expressions := by
  induction expressions with
  | nil => exact Leaves.addBlank Leaves.nil
  | cons expression rest ih => exact Leaves.keep rfl ih

theorem lines_concat_blank (reading : Reading) :
    Reading.lines (reading ++ [([⟨false, []⟩], .blank)]) = reading.lines ++ [⟨false, []⟩] := by
  rw [Reading.lines, List.flatMap_append]
  rfl

theorem expressions_concat_blank (reading : Reading) :
    Reading.expressions (reading ++ [([⟨false, []⟩], .blank)]) =
      reading.expressions ++ [.blank] := by
  rw [Reading.expressions, List.map_append]
  rfl

theorem endsPlain_concat_nil (lines : List (List Char)) : EndsPlain (lines ++ [[]]) := by
  rw [EndsPlain, List.getLast?_concat]
  decide

theorem marks_concat_blank {lines : List TextLine} (marks : grammar.Marks lines) :
    grammar.Marks (lines ++ [⟨false, []⟩]) where
  skipped line isIn isMarked := by
    rcases List.mem_append.mp isIn with inside | last
    · exact marks.skipped line inside isMarked
    · rw [List.mem_singleton.mp last] at isMarked
      contradiction
  first line isIn := by
    cases lines with
    | nil => contradiction
    | cons _ lines =>
        rcases List.mem_append.mp isIn with inside | last
        · exact marks.first line inside
        · rw [List.mem_singleton.mp last]

theorem reads_newline (lawful : grammar.Lawful) (reads : grammar.Reads text reading) :
    grammar.Reads (text ++ ['\n']) (reading ++ [([⟨false, []⟩], .blank)]) := by
  refine ⟨?_, ?_, ?_, ?_, ?_⟩
  · rw [splitOn_newline, reads.lines, lines_concat_blank, List.map_append]
    rfl
  · rw [splitOn_newline]
    exact endsPlain_concat_nil _
  · rw [lines_concat_blank]
    exact marks_concat_blank reads.marks
  · intro part isIn
    rcases List.mem_append.mp isIn with inside | last
    · exact reads.means part inside
    · rw [List.mem_singleton.mp last]
      exact Grammar.interpret_blank lawful
  · rw [expressions_concat_blank]
    exact lawful.leaves beginsPrivateKey _ _ (leaves_of_concat_blank _ _) reads.valid

/-- A line with nothing on it is an expression of its own at the end of a text. -/
theorem reads_of_newline (lawful : grammar.Lawful) (ends : EndsPlain (text.splitOn '\n'))
    (reads : grammar.Reads (text ++ ['\n']) reading) :
    ∃ front, reading = front ++ [([⟨false, []⟩], .blank)] ∧ grammar.Reads text front := by
  have lines := reads.lines
  rw [splitOn_newline] at lines
  cases reading using List.reverseRecOn with
  | nil => simp [Reading.lines] at lines
  | append_singleton front part =>
      obtain ⟨written, expression⟩ := part
      have read : grammar.interpret written = some expression :=
        reads.means (written, expression) (by simp)
      have split : Reading.lines (front ++ [(written, expression)]) =
          Reading.lines front ++ written := by
        rw [Reading.lines, List.flatMap_append, List.flatMap_singleton, ← Reading.lines]
      cases written using List.reverseRecOn with
      | nil =>
          rw [Grammar.interpret_nil lawful] at read
          contradiction
      | append_singleton others last =>
          rw [split, ← List.append_assoc, List.map_append, List.map_singleton] at lines
          have same := (List.append_inj' lines rfl).2
          obtain rfl : last = ⟨false, []⟩ := Grammar.written_eq_nil (List.singleton_inj.mp same).symm
          have contents : (others ++ [(⟨false, []⟩ : TextLine)]).map TextLine.content = [[]] :=
            lawful.closes _ (by rw [← Grammar.interpret, read]; rfl) (by simp)
          have alone : others = [] := by simpa using congrArg List.length contents
          subst alone
          rw [List.nil_append, Grammar.interpret_blank lawful] at read
          cases read
          refine ⟨front, rfl, (List.append_inj' lines rfl).1.trans (by rw [List.append_nil]), ends,
            ?_, ?_, ?_⟩
          · have marks := reads.marks
            rw [split] at marks
            exact marks.sublist (List.sublist_append_left ..)
          · intro part isIn
            exact reads.means part (List.mem_append_left _ isIn)
          · have valid := reads.valid
            rw [List.nil_append, expressions_concat_blank] at valid
            exact lawful.leaves beginsPrivateKey _ _
              (Grammar.leaves_concat_blank (Grammar.leaves_refl _ _)) valid

/-- A text that does not end in a carriage return parses with a newline behind it as
it does without. -/
theorem parse_newline (lawful : grammar.Lawful) {toml : Parser}
    (follows : grammar.FollowedBy toml) (ends : EndsPlain (text.splitOn '\n')) (table : Table) :
    toml.parse (text ++ ['\n']) = .ok table ↔ toml.parse text = .ok table := by
  have sameBuild : ∀ front : Reading,
      build (Reading.expressions (front ++ [([⟨false, []⟩], .blank)])) =
        build front.expressions := by
    intro front
    rw [expressions_concat_blank, build, build]
    exact congrArg (Option.map Draft.root) (Grammar.run_concat_blank _ _)
  rw [follows, follows]
  constructor
  · rintro ⟨reading, reads, built⟩
    obtain ⟨front, isReading, readsText⟩ := reads_of_newline lawful ends reads
    rw [isReading, sameBuild] at built
    exact ⟨front, readsText, built⟩
  · rintro ⟨reading, reads, built⟩
    exact ⟨_, reads_newline lawful reads, (sameBuild reading).trans built⟩

end Reading

theorem fromTomlStr_newline {grammar : Grammar} (lawful : grammar.Lawful) {toml : Parser}
    (follows : grammar.FollowedBy toml) {text : List Char} (ends : EndsPlain (text.splitOn '\n'))
    (base64 : Engine) (cfg : HydraConfig) :
    HydraConfig.fromTomlStr toml base64 (String.ofList (text ++ ['\n'])) = .ok cfg ↔
      HydraConfig.fromTomlStr toml base64 (String.ofList text) = .ok cfg := by
  rw [HydraConfig.fromTomlStr_ok_iff, HydraConfig.fromTomlStr_ok_iff, String.toList_ofList,
    String.toList_ofList]
  simp only [parse_newline lawful follows ends]

section Hops

variable {tool : Engine} (toolLawful : tool.Lawful) {serverCfg : String}

include toolLawful

theorem passOn_eq (cfg : List Char) : passOn tool cfg = some (clientToml cfg ++ ['\n']) := by
  have trimmed : commandSubstitution (clientToml cfg) = clientToml cfg :=
    commandSubstitution_idempotent _
  rw [passOn, clientFromBundle, decode_makeBundle toolLawful, Option.map_some,
    String.toList_ofList, String.toList_ofList, trimmed]

theorem passedOn_eq (noNul : Char.ofNat 0 ∉ serverCfg.toList) (hops : Nat) :
    passedOn tool (hops + 1) serverCfg.toList = some (clientToml serverCfg.toList ++ ['\n']) := by
  have again : ∀ hops, passedOn tool hops (clientToml serverCfg.toList ++ ['\n']) =
      some (clientToml serverCfg.toList ++ ['\n']) := by
    intro hops
    induction hops with
    | zero => rfl
    | succ hops ih =>
        rw [passedOn, passOn_eq toolLawful, clientToml_installed noNul, Option.bind_some, ih]
  rw [passedOn, passOn_eq toolLawful, Option.bind_some, again]

end Hops

/-- On every machine that a bundle is passed on to there is the same file, which
makes the same bundle and has no line that the filter takes.  The bundle is the server's
configuration without the private key if the file loads as that and does not end in a
carriage return before its newline. -/
theorem shared_bundle_is_stable {grammar : Grammar} {toml : Parser} (lawful : grammar.Lawful)
    (follows : grammar.FollowedBy toml) (tool : Engine) (toolLawful : tool.Lawful)
    (serverCfg : String) (noNul : Char.ofNat 0 ∉ serverCfg.toList) :
    ∃ installed, (∀ hops, passedOn tool (hops + 1) serverCfg.toList = some installed) ∧
      makeBundle tool (String.ofList installed) = makeBundle tool serverCfg ∧
      fileLines installed = keptLines serverCfg.toList ∧
      (∀ line ∈ fileLines installed, startsPrivateKey line = false) ∧
      ∀ base64 cfg, FaithfulBundle toml base64 tool serverCfg cfg ↔
        EndsPlain (fileLines installed) ∧
          HydraConfig.fromTomlStr toml base64 (String.ofList installed) =
            .ok (withoutPrivateKey cfg) := by
  have lines : fileLines (clientToml serverCfg.toList ++ ['\n']) = keptLines serverCfg.toList := by
    rw [fileLines_newline, clientToml_lines noNul]
  have pieces : (clientToml serverCfg.toList).splitOn '\n' = keptLines serverCfg.toList :=
    clientToml_lines noNul
  refine ⟨clientToml serverCfg.toList ++ ['\n'], passedOn_eq toolLawful noNul, ?_, lines, ?_, ?_⟩
  · rw [makeBundle, makeBundle, String.toList_ofList, clientToml_installed noNul]
  · exact installed_keyless noNul
  · intro base64 cfg
    rw [lines]
    constructor
    · intro faithful
      have ends := ends_of_faithful follows toolLawful (nul_of_mem_pieces noNul) faithful
      refine ⟨ends, (fromTomlStr_newline lawful follows (pieces ▸ ends) base64 _).mpr ?_⟩
      exact (faithful_iff toolLawful).mp faithful
    · intro loads
      obtain ⟨ends, loads⟩ := loads
      refine (faithful_iff toolLawful).mpr ?_
      exact (fromTomlStr_newline lawful follows (pieces ▸ ends) base64 _).mp loads

theorem bare_key_bundle_is_stable :
    ∃ installed, (∀ hops, passedOn standard (hops + 1) (sampleText bareKeyLine).toList =
        some installed) ∧
      (∀ line ∈ fileLines installed, startsPrivateKey line = false) ∧
      (FaithfulBundle lineParser standard standard (sampleText bareKeyLine) sampleConfig ↔
        EndsPlain (fileLines installed) ∧
          HydraConfig.fromTomlStr lineParser standard (String.ofList installed) =
            .ok (withoutPrivateKey sampleConfig)) := by
  have noNul : Char.ofNat 0 ∉ (sampleText bareKeyLine).toList := by
    rw [sampleText, String.toList_ofList]
    decide +kernel
  obtain ⟨installed, everywhere, -, -, clean, loads⟩ := shared_bundle_is_stable
    lineGrammar_lawful lineParser_follows standard standard_lawful (sampleText bareKeyLine) noNul
  exact ⟨installed, everywhere, clean, loads standard sampleConfig⟩

end RealityHydra.Setup
