import RealityHydra.Setup.Installed

/-!
# The machines that the script sets up

On any number of machines the script installs servers and clients, prints bundles and
uninstalls.  What is pasted or typed on one of them was printed on another.  Whatever
the order, a client has the configuration of a server, and has it as long as that
server keeps its own.
-/

set_option autoImplicit false

namespace RealityHydra.Setup

open RealityHydra.HydraCli
open RealityHydra.Lib.Base64
open RealityHydra.Lib.ByteCodec
open RealityHydra.Lib.LineEditing
open RealityHydra.Lib.Toml
open RealityHydra.Lib.TomlGrammar (Grammar)
open RealityHydra.Lib.Transition
open RealityHydra.PoolEngine

/-! ## The script -/

/-- The configuration files of a machine, that of a server and that of a client. -/
structure Site where
  serverCfg : Option (List Char)
  clientCfg : Option (List Char)
  deriving DecidableEq, Repr

/-- `find_config`. -/
def Site.findConfig (site : Site) : Option (List Char) := site.serverCfg.or site.clientCfg

/-- The file that `do_bundle` bundles. -/
def Site.bundled (site : Site) : Option (List Char) := site.serverCfg.or site.findConfig

/-- `hydra init --output "$cfg" --dest "$dest"`. -/
def serverInit (dest : List Char) : InitArgs :=
  { defaultArgs with output := "/etc/hydra/hydra.toml", dest := String.ofList dest }

/-- Which machine had a configuration generated, and with what. -/
structure Origin (Machine : Type) where
  machine : Machine
  keys : Generated
  dest : List Char

def Origin.cfg {Machine : Type} (base64 : Engine) (origin : Origin Machine) : List Char :=
  (renderConfig base64 origin.keys (serverInit origin.dest)).1.toList

/-- The files of all machines, what has been printed, what has been generated, and what
has been typed for the clients that were set up by hand. -/
structure Fleet (Machine : Type) where
  sites : Machine → Site
  tokens : List (List Char)
  summaries : List ServerSummary
  generated : List (Origin Machine)
  typed : List ManualAnswers

/-- A run of the script, with what is typed at its prompts. -/
inductive Command (Machine : Type) where
  | installServer (machine : Machine) (keys : Generated) (addr port : List Char)
  | installClient (machine : Machine) (bundle : List Char) (overwrite : Bool)
  | installManual (machine : Machine) (keys : Generated) (answers : ManualAnswers)
      (overwrite : Bool)
  | doBundle (machine : Machine)
  | doUninstall (machine : Machine) (removeServer removeClient : Bool)

/-- A bundle as it is copied from the screen. -/
def shownBundle (tool : Engine) (cfg : List Char) : List Char :=
  commandSubstitution (makeBundle tool (String.ofList cfg))

section Script

variable {Machine : Type}

def Fleet.start : Fleet Machine := ⟨fun _ => ⟨none, none⟩, [], [], [], []⟩

def Fleet.showBundle (tool : Engine) (fleet : Fleet Machine) (cfg : List Char) :
    Fleet Machine :=
  { fleet with tokens := fleet.tokens ++ [shownBundle tool cfg] }

def Fleet.showSummary (tool : Engine) (fleet : Fleet Machine) (cfg : List Char) :
    Fleet Machine :=
  { fleet.showBundle tool cfg with summaries := fleet.summaries ++ [printServerSummary cfg] }

variable [DecidableEq Machine]

def Fleet.setSite (fleet : Fleet Machine) (machine : Machine) (site : Site) : Fleet Machine :=
  { fleet with sites := Function.update fleet.sites machine site }

theorem setSite_self (fleet : Fleet Machine) (machine : Machine) (site : Site) :
    (fleet.setSite machine site).sites machine = site := Function.update_self ..

theorem setSite_other (fleet : Fleet Machine) {machine other : Machine} (isOther : other ≠ machine)
    (site : Site) : (fleet.setSite machine site).sites other = fleet.sites other :=
  Function.update_of_ne isOther ..

def Fleet.generate (base64 : Engine) (fleet : Fleet Machine) (origin : Origin Machine) :
    Fleet Machine :=
  let site := fleet.sites origin.machine
  { fleet.setSite origin.machine { site with serverCfg := some (origin.cfg base64) } with
    generated := fleet.generated ++ [origin] }

/-- A configuration that is there already stays, unless it may be overwritten. -/
def Fleet.writeClient (fleet : Fleet Machine) (machine : Machine) (overwrite : Bool)
    (written : Option (List Char)) (typed : List ManualAnswers) : Option (Fleet Machine) :=
  let site := fleet.sites machine
  if site.clientCfg.isSome && !overwrite then some fleet
  else written.map fun cfg =>
    { fleet.setSite machine { site with clientCfg := some cfg } with typed := typed ++ fleet.typed }

/-- Where the script dies it has changed nothing. -/
def runCommand (base64 tool : Engine) (fleet : Fleet Machine) :
    Command Machine → Option (Fleet Machine)
  | .installServer machine keys addr port =>
      if addr = [] then none
      else
        match (fleet.sites machine).serverCfg with
        | some cfg => some (fleet.showSummary tool cfg)
        | none =>
            let origin : Origin Machine := ⟨machine, keys, addr ++ ':' :: port⟩
            some ((fleet.generate base64 origin).showSummary tool (origin.cfg base64))
  | .installClient machine bundle overwrite =>
      fleet.writeClient machine overwrite (clientFromBundle tool bundle) []
  | .installManual machine keys answers overwrite =>
      fleet.writeClient machine overwrite (clientManual base64 keys answers).toOption [answers]
  | .doBundle machine => (fleet.sites machine).bundled.map (fleet.showBundle tool)
  | .doUninstall machine removeServer removeClient =>
      let site := fleet.sites machine
      some (fleet.setSite machine
        ⟨if removeServer then none else site.serverCfg,
          if removeClient then none else site.clientCfg⟩)

/-- What a run of the script can do. -/
inductive CommandEffect (base64 tool : Engine) (fleet : Fleet Machine) :
    Command Machine → Fleet Machine → Prop where
  | keepServer (machine : Machine) (keys : Generated) (addr port cfg : List Char)
      (held : (fleet.sites machine).serverCfg = some cfg) :
      CommandEffect base64 tool fleet (.installServer machine keys addr port)
        (fleet.showSummary tool cfg)
  | newServer (origin : Origin Machine) (addr port : List Char)
      (isDest : origin.dest = addr ++ ':' :: port)
      (absent : (fleet.sites origin.machine).serverCfg = none) :
      CommandEffect base64 tool fleet (.installServer origin.machine origin.keys addr port)
        ((fleet.generate base64 origin).showSummary tool (origin.cfg base64))
  | keepClient (command : Command Machine) : CommandEffect base64 tool fleet command fleet
  | installClient (machine : Machine) (bundle : List Char) (overwrite : Bool) (cfg : List Char)
      (decoded : clientFromBundle tool bundle = some cfg) :
      CommandEffect base64 tool fleet (.installClient machine bundle overwrite)
        (fleet.setSite machine { fleet.sites machine with clientCfg := some cfg })
  | installManual (machine : Machine) (keys : Generated) (answers : ManualAnswers)
      (overwrite : Bool) (cfg : List Char) (written : clientManual base64 keys answers = .ok cfg) :
      CommandEffect base64 tool fleet (.installManual machine keys answers overwrite)
        { fleet.setSite machine { fleet.sites machine with clientCfg := some cfg } with
          typed := answers :: fleet.typed }
  | bundle (machine : Machine) (cfg : List Char)
      (source : (fleet.sites machine).bundled = some cfg) :
      CommandEffect base64 tool fleet (.doBundle machine) (fleet.showBundle tool cfg)
  | uninstall (machine : Machine) (removeServer removeClient : Bool) :
      CommandEffect base64 tool fleet (.doUninstall machine removeServer removeClient)
        (fleet.setSite machine
          ⟨if removeServer then none else (fleet.sites machine).serverCfg,
            if removeClient then none else (fleet.sites machine).clientCfg⟩)

variable {base64 tool : Engine} {fleet after : Fleet Machine}

theorem writeClient_cases {machine : Machine} {overwrite : Bool} {written : Option (List Char)}
    {typed : List ManualAnswers}
    (ran : fleet.writeClient machine overwrite written typed = some after) :
    after = fleet ∨ ∃ cfg, written = some cfg ∧
      after = { fleet.setSite machine { fleet.sites machine with clientCfg := some cfg } with
        typed := typed ++ fleet.typed } := by
  unfold Fleet.writeClient at ran
  dsimp only at ran
  split at ran
  · exact Or.inl (Option.some.inj ran).symm
  · obtain ⟨cfg, isWritten, same⟩ := Option.map_eq_some_iff.mp ran
    exact Or.inr ⟨cfg, isWritten, same.symm⟩

theorem runCommand_effect {command : Command Machine}
    (ran : runCommand base64 tool fleet command = some after) :
    CommandEffect base64 tool fleet command after := by
  cases command with
  | installServer machine keys addr port =>
      dsimp only [runCommand] at ran
      split at ran
      · contradiction
      · split at ran
        · rename_i cfg held
          cases Option.some.inj ran
          exact .keepServer machine keys addr port cfg held
        · rename_i absent
          cases Option.some.inj ran
          exact .newServer ⟨machine, keys, addr ++ ':' :: port⟩ addr port rfl absent
  | installClient machine bundle overwrite =>
      rcases writeClient_cases ran with rfl | ⟨cfg, decoded, rfl⟩
      · exact .keepClient _
      · exact .installClient machine bundle overwrite cfg decoded
  | installManual machine keys answers overwrite =>
      rcases writeClient_cases ran with rfl | ⟨cfg, written, rfl⟩
      · exact .keepClient _
      · refine .installManual machine keys answers overwrite cfg ?_
        cases isWritten : clientManual base64 keys answers with
        | error stop =>
            rw [isWritten] at written
            contradiction
        | ok result =>
            rw [isWritten] at written
            exact congrArg Except.ok (Option.some.inj written)
  | doBundle machine =>
      obtain ⟨cfg, source, same⟩ := Option.map_eq_some_iff.mp ran
      rw [← same]
      exact .bundle machine cfg source
  | doUninstall machine removeServer removeClient =>
      cases Option.some.inj ran
      exact .uninstall machine removeServer removeClient

/-- The files that a command leaves to a server are its own. -/
def KeepsServer (machine : Machine) : Command Machine → Prop
  | .doUninstall other removeServer _ => other = machine → removeServer = false
  | _ => True

theorem serverCfg_kept {machine : Machine} {cfg : List Char} {command : Command Machine}
    (held : (fleet.sites machine).serverCfg = some cfg) (keeps : KeepsServer machine command)
    (ran : runCommand base64 tool fleet command = some after) :
    (after.sites machine).serverCfg = some cfg := by
  have setSite : ∀ (other : Machine) (site : Site),
      (other = machine → site.serverCfg = some cfg) →
        ((fleet.setSite other site).sites machine).serverCfg = some cfg := by
    intro other site same
    by_cases isOther : machine = other
    · subst isOther
      rw [setSite_self]
      exact same rfl
    · rw [setSite_other fleet isOther]
      exact held
  cases runCommand_effect ran with
  | keepServer other keys addr port _ _ => exact held
  | newServer origin addr port isDest absent =>
      have isOther : machine ≠ origin.machine := by
        rintro rfl
        rw [absent] at held
        contradiction
      refine setSite origin.machine _ ?_
      intro same
      exact absurd same.symm isOther
  | keepClient => exact held
  | installClient other _ _ _ _ =>
      refine setSite other _ ?_
      rintro rfl
      exact held
  | installManual other _ _ _ _ _ =>
      refine setSite other _ ?_
      rintro rfl
      exact held
  | bundle other _ _ => exact held
  | uninstall other removeServer removeClient =>
      refine setSite other _ ?_
      intro same
      rw [keeps same, same]
      exact held

end Script

/-! ## Of one configuration -/

section Configuration

variable {base64 : Engine} {toml : Parser} {serverCfg cfg : List Char}

/-- The client has what the server has, but no private key and an address of its own. -/
def Configures (toml : Parser) (base64 : Engine) (serverCfg dest clientCfg : List Char) : Prop :=
  ∃ server, HydraConfig.fromTomlStr toml base64 (String.ofList serverCfg) = .ok server ∧
    HydraConfig.fromTomlStr toml base64 (String.ofList clientCfg) =
      .ok { withoutPrivateKey server with dest := some (String.ofList dest) }

/-- A client of the server, of which another can be made. -/
structure ClientOf (toml : Parser) (base64 : Engine) (serverCfg dest cfg : List Char) : Prop where
  noNul : Char.ofNat 0 ∉ cfg
  keyless : ∀ line ∈ fileLines cfg, startsPrivateKey line = false
  configured : Configures toml base64 serverCfg dest cfg
  shared : Configures toml base64 serverCfg dest (clientToml cfg ++ ['\n'])

theorem ClientOf.share {dest : List Char} (clientOf : ClientOf toml base64 serverCfg dest cfg) :
    ClientOf toml base64 serverCfg dest (clientToml cfg ++ ['\n']) where
  noNul := nul_not_mem_installed cfg
  keyless := installed_keyless clientOf.noNul
  configured := clientOf.shared
  shared := by
    rw [clientToml_installed clientOf.noNul]
    exact clientOf.shared

/-! ### From a bundle -/

section Generated

variable (lawful : base64.Lawful) (conforms : toml.Conforms) (keys : Generated)
  {dest : List Char} (plain : Unescaped dest)

theorem serverInit_produces : Produces base64 keys emptyDirectory (serverInit dest)
    (renderConfig base64 keys (serverInit dest)).1 := Produces.file rfl rfl rfl

include plain in
theorem serverInit_dest : Unescaped (serverInit dest).dest.toList := by
  rw [serverInit, String.toList_ofList]
  exact plain

include conforms plain in
theorem serverInit_writable : Writable toml (serverInit dest) where
  dest := serverInit_dest plain
  epochLen := defaultArgs_epochLen
  duration := ⟨⟨21600, 0⟩, (by decide : parseDuration defaultArgs.epochLen = .ok ⟨21600, 0⟩)⟩
  activeK := (by decide : 0 < defaultArgs.activeK.toNat)
  integer := conforms.represents _ (by decide : defaultArgs.activeK.toNat < 2 ^ 63)

include lawful conforms plain

theorem generated_loads : ∃ server,
    HydraConfig.fromTomlStr toml base64 (renderConfig base64 keys (serverInit dest)).1 =
        .ok server ∧
      (writtenConfig base64 keys (serverInit dest)).Loads base64 server ∧
      LoadsBack keys (serverInit dest) server :=
  produced_loads lawful (serverInit_produces keys) conforms (serverInit_writable conforms plain)

/-- What the bundle of a generated configuration installs. -/
theorem clientOf_generated :
    ClientOf toml base64 (renderConfig base64 keys (serverInit dest)).1.toList dest
      (clientToml (renderConfig base64 keys (serverInit dest)).1.toList ++ ['\n']) := by
  have produced := @serverInit_produces base64 keys dest
  have writable := serverInit_writable conforms plain
  obtain ⟨server, installed, rollout⟩ :=
    exists_rollout lawful standard_lawful conforms produced writable
  obtain ⟨noNul, isInstalled⟩ := clientToml_init lawful produced writable.dest writable.epochLen
  rw [← rollout.document] at isInstalled
  have configured : Configures toml base64 (renderConfig base64 keys (serverInit dest)).1.toList
      dest (clientToml (renderConfig base64 keys (serverInit dest)).1.toList ++ ['\n']) := by
    refine ⟨server, ?_, ?_⟩
    · rw [String.ofList_toList]
      exact rollout.loaded
    · have own : server.dest = some (String.ofList dest) := rollout.back.dest
      rw [isInstalled, rollout.client, ← own]
      rfl
  refine ⟨nul_not_mem_installed _, installed_keyless noNul, configured, ?_⟩
  rw [clientToml_installed noNul]
  exact configured

end Generated

/-! ### By hand

Passed on, the file loses the blank line at its end. -/

section Manual

theorem meaning_concat_blank (document : List Line) :
    meaning (document ++ [.blank]) = meaning document := by
  rw [meaning, List.filterMap_append]
  exact congrArg execute (List.append_nil _)

theorem fromTomlStr_concat_blank (conforms : toml.Conforms) {document : List Line}
    (formed : ∀ line ∈ document ++ [Line.blank], line.WellFormed) (cfg : HydraConfig) :
    HydraConfig.fromTomlStr toml base64 (String.ofList (render (document ++ [.blank]))) =
        .ok cfg ↔
      HydraConfig.fromTomlStr toml base64 (String.ofList (render document)) = .ok cfg := by
  have front : ∀ line ∈ document, line.WellFormed :=
    fun line isIn => formed line (List.mem_append_left _ isIn)
  have integers : (∀ line ∈ document ++ [Line.blank], ∀ value ∈ line.integers,
      toml.Represents value) ↔ ∀ line ∈ document, ∀ value ∈ line.integers,
        toml.Represents value := by
    simp [Line.integers, or_imp, forall_and]
  have parsed : ∀ table, toml.parse (render (document ++ [.blank])) = .ok table ↔
      toml.parse (render document) = .ok table := by
    intro table
    rw [conforms.document _ _ formed, conforms.document _ _ front, meaning_concat_blank, integers]
  rw [HydraConfig.fromTomlStr_ok_iff, HydraConfig.fromTomlStr_ok_iff, String.toList_ofList,
    String.toList_ofList]
  simp only [parsed]

variable {front : List Line} {entry : Line} {last : List Char}

/-- Without a line under the private key only the blank one at the end goes. -/
theorem clientToml_render (formed : ∀ line ∈ front ++ [entry] ++ [Line.blank], line.WellFormed)
    (unmentioned : Unmentioned privateKeyName (front ++ [entry] ++ [Line.blank]))
    (single : entry.lines = [last]) (someChar : last ≠ []) :
    clientToml (render (front ++ [entry] ++ [Line.blank])) ++ ['\n'] =
      render (front ++ [entry]) := by
  have written : (front ++ [entry] ++ [Line.blank]).flatMap Line.lines =
      front.flatMap Line.lines ++ [last] ++ List.replicate 1 [] := by
    rw [List.flatMap_append, List.flatMap_append, List.flatMap_singleton, List.flatMap_singleton,
      single]
    rfl
  have pieces := splitOn_render formed []
  rw [List.append_nil] at pieces
  have left : ((render (front ++ [entry] ++ [Line.blank])).splitOn '\n').filter passes =
      front.flatMap Line.lines ++ [last] ++ List.replicate 2 [] := by
    rw [pieces, List.filter_append, filter_stretch formed unmentioned, written,
      List.append_assoc]
    rfl
  rw [clientToml_newline (render_noNul formed), keptLines, left, trimmedLines_blanks someChar,
    Lib.Toml.render, List.flatMap_append, List.flatMap_singleton, single]
  rfl

theorem manualDocument_ends (base64 : Engine) (keys : Generated) (args : InitArgs)
    (values : Rewrite) : ∃ front weight, manualDocument base64 keys args values =
      front ++ [plainEntry "weight" 1 (.decimal weight)] ++ [.blank] := by
  obtain ⟨front, weight, isPool⟩ := poolLines_ends
  rw [manualDocument, isPool]
  simp only [← List.append_assoc, ← List.cons_append]
  exact ⟨_, _, rfl⟩

/-- With the defaults that the script leaves to `init`, only the address differs. -/
theorem manualConfig_default {server : HydraConfig} (epochLen : server.epochLen = ⟨21600, 0⟩)
    (activeK : server.activeK = 6) (dest : List Char) :
    manualConfig server dest =
      { withoutPrivateKey server with dest := some (String.ofList dest) } := by
  rw [manualConfig, HydraConfig.mk.injEq]
  simp [withoutPrivateKey, epochLen, activeK]

/-- What the script makes by hand of the values that a server's summary shows. -/
theorem clientOf_manual (lawful : base64.Lawful) (conforms : toml.Conforms)
    (serverKeys clientKeys : Generated) {serverDest dest : List Char}
    (serverPlain : Unescaped serverDest) (plain : Unescaped dest) :
    ClientOf toml base64 (renderConfig base64 serverKeys (serverInit serverDest)).1.toList dest
      (render (manualDocument base64 clientKeys (manualInit dest)
        (summaryRewrite base64 serverKeys))) := by
  obtain ⟨server, loaded, written, back⟩ := generated_loads lawful conforms serverKeys serverPlain
  have serverLoads : HydraConfig.fromTomlStr toml base64
      (String.ofList (renderConfig base64 serverKeys (serverInit serverDest)).1.toList) =
        .ok server := by
    rw [String.ofList_toList, loaded]
  have epochLen : server.epochLen = ⟨21600, 0⟩ := by
    have read : parseDuration "6h" = .ok server.epochLen := back.epochLen
    have sixHours : parseDuration "6h" = .ok ⟨21600, 0⟩ := by decide
    exact Except.ok.inj (read.symm.trans sixHours)
  have formed : ∀ line ∈ manualDocument base64 clientKeys (manualInit dest)
      (summaryRewrite base64 serverKeys), line.WellFormed := summaryDocument_formed lawful plain
  have fits : toml.Represents (manualInit dest).activeK.toNat := conforms.represents 6 (by decide)
  have loads := manualRaw_loads lawful clientKeys dest written back
  have configured : HydraConfig.fromTomlStr toml base64
      (String.ofList (render (manualDocument base64 clientKeys (manualInit dest)
        (summaryRewrite base64 serverKeys)))) = .ok (manualConfig server dest) := by
    rw [fromTomlStr_manual _ _ _ _ conforms formed fits]
    exact RawConfig.intoConfig_ok_iff.mpr loads
  have unmentioned : Unmentioned privateKeyName (manualDocument base64 clientKeys
      (manualInit dest) (summaryRewrite base64 serverKeys)) := rfl
  have same := manualConfig_default epochLen back.activeK dest
  rw [same] at configured
  refine ⟨render_noNul formed, ?_, ⟨server, serverLoads, configured⟩, ?_⟩
  · rw [fileLines_render formed]
    exact lines_keyless formed unmentioned
  · obtain ⟨front, weight, isDocument⟩ := manualDocument_ends base64 clientKeys (manualInit dest)
      (summaryRewrite base64 serverKeys)
    rw [isDocument] at formed unmentioned configured ⊢
    rw [clientToml_render formed unmentioned rfl (by simp [entryFront])]
    exact ⟨server, serverLoads, (fromTomlStr_concat_blank conforms formed _).mp configured⟩

end Manual

end Configuration

/-! ## Of all machines -/

section Run

variable {Machine : Type} (toml : Parser) (base64 tool : Engine)

/-- The address of the server, or one that was typed together with its values. -/
def Fleet.Addresses (fleet : Fleet Machine) (origin : Origin Machine) (dest : List Char) : Prop :=
  dest = origin.dest ∨ ∃ answers ∈ fleet.typed, answers.dest = dest ∧
    answers = (generatedValues base64 origin.keys).answers answers.addr answers.p

/-- The text belongs to a client of a server that has been generated. -/
def Fleet.Enrols (fleet : Fleet Machine) (cfg : List Char) : Prop :=
  ∃ origin ∈ fleet.generated, ∃ dest, fleet.Addresses base64 origin dest ∧
    ClientOf toml base64 (origin.cfg base64) dest cfg

structure Fleet.Sound (fleet : Fleet Machine) : Prop where
  plain : ∀ origin ∈ fleet.generated, Unescaped origin.dest
  servers : ∀ machine cfg, (fleet.sites machine).serverCfg = some cfg →
    ∃ origin ∈ fleet.generated, origin.machine = machine ∧ origin.cfg base64 = cfg
  clients : ∀ machine cfg, (fleet.sites machine).clientCfg = some cfg →
    fleet.Enrols toml base64 cfg
  tokens : ∀ token ∈ fleet.tokens, ∃ cfg, clientFromBundle tool token = some cfg ∧
    fleet.Enrols toml base64 cfg
  summaries : ∀ shown ∈ fleet.summaries, ∃ origin ∈ fleet.generated,
    shown = generatedValues base64 origin.keys

/-- Bundles are pasted that were printed, and values typed that a summary showed. -/
def Copied (fleet : Fleet Machine) : Command Machine → Prop
  | .installServer _ _ addr port => Unescaped (addr ++ ':' :: port)
  | .installClient _ bundle _ => bundle ∈ fleet.tokens
  | .installManual _ _ answers _ => answers.addr ≠ [] ∧ Unescaped answers.dest ∧
      ∃ shown ∈ fleet.summaries, answers = shown.answers answers.addr answers.p
  | _ => True

variable {toml base64 tool} {fleet after : Fleet Machine}

theorem Fleet.start_sound : (Fleet.start : Fleet Machine).Sound toml base64 tool where
  plain _ isIn := absurd isIn List.not_mem_nil
  servers _ _ held := by cases held
  clients _ _ held := by cases held
  tokens _ isIn := absurd isIn List.not_mem_nil
  summaries _ isIn := absurd isIn List.not_mem_nil

theorem Fleet.Sound.showBundle (sound : fleet.Sound toml base64 tool) (toolLawful : tool.Lawful)
    {cfg : List Char} (enrols : fleet.Enrols toml base64 (clientToml cfg ++ ['\n'])) :
    (fleet.showBundle tool cfg).Sound toml base64 tool where
  plain := sound.plain
  servers := sound.servers
  clients := sound.clients
  tokens token isIn := by
    rcases List.mem_append.mp isIn with earlier | last
    · exact sound.tokens token earlier
    · rw [List.mem_singleton.mp last]
      exact ⟨_, passOn_eq toolLawful cfg, enrols⟩
  summaries := sound.summaries

theorem printServerSummary_generated (lawful : base64.Lawful) (keys : Generated)
    {dest : List Char} (plain : Unescaped dest) :
    printServerSummary (renderConfig base64 keys (serverInit dest)).1.toList =
      generatedValues base64 keys :=
  produced_summary lawful (serverInit_produces keys) (serverInit_dest plain) defaultArgs_epochLen

theorem Fleet.Sound.showSummary (sound : fleet.Sound toml base64 tool) (lawful : base64.Lawful)
    (toolLawful : tool.Lawful) (conforms : toml.Conforms) {origin : Origin Machine}
    (isIn : origin ∈ fleet.generated) :
    (fleet.showSummary tool (origin.cfg base64)).Sound toml base64 tool := by
  have plain := sound.plain origin isIn
  have shown := sound.showBundle toolLawful
    ⟨origin, isIn, _, Or.inl rfl, clientOf_generated lawful conforms origin.keys plain⟩
  refine ⟨shown.plain, shown.servers, shown.clients, shown.tokens, ?_⟩
  intro summary isShown
  rcases List.mem_append.mp isShown with earlier | last
  · exact sound.summaries summary earlier
  · rw [List.mem_singleton.mp last]
    exact ⟨origin, isIn, printServerSummary_generated lawful origin.keys plain⟩

variable [DecidableEq Machine]

theorem Fleet.Sound.setSite (sound : fleet.Sound toml base64 tool) (machine : Machine)
    {site : Site}
    (server : ∀ cfg, site.serverCfg = some cfg →
      ∃ origin ∈ fleet.generated, origin.machine = machine ∧ origin.cfg base64 = cfg)
    (client : ∀ cfg, site.clientCfg = some cfg → fleet.Enrols toml base64 cfg) :
    (fleet.setSite machine site).Sound toml base64 tool where
  plain := sound.plain
  servers other cfg held := by
    by_cases same : other = machine
    · subst same
      rw [setSite_self] at held
      exact server cfg held
    · rw [setSite_other fleet same] at held
      exact sound.servers other cfg held
  clients other cfg held := by
    by_cases same : other = machine
    · subst same
      rw [setSite_self] at held
      exact client cfg held
    · rw [setSite_other fleet same] at held
      exact sound.clients other cfg held
  tokens := sound.tokens
  summaries := sound.summaries

omit [DecidableEq Machine] in
theorem Fleet.Sound.extend (sound : fleet.Sound toml base64 tool)
    {generated : List (Origin Machine)} {typed : List ManualAnswers}
    (kept : fleet.generated ⊆ generated) (keptTyped : fleet.typed ⊆ typed)
    (plain : ∀ origin ∈ generated, Unescaped origin.dest) :
    { fleet with generated := generated, typed := typed }.Sound toml base64 tool := by
  have enrols : ∀ cfg, fleet.Enrols toml base64 cfg →
      { fleet with generated := generated, typed := typed }.Enrols toml base64 cfg := by
    rintro cfg ⟨origin, isIn, dest, addresses, clientOf⟩
    refine ⟨origin, kept isIn, dest, ?_, clientOf⟩
    rcases addresses with own | ⟨answers, isTyped, rest⟩
    · exact Or.inl own
    · exact Or.inr ⟨answers, keptTyped isTyped, rest⟩
  refine ⟨plain, ?_, ?_, ?_, ?_⟩
  · intro machine cfg held
    obtain ⟨origin, isIn, rest⟩ := sound.servers machine cfg held
    exact ⟨origin, kept isIn, rest⟩
  · intro machine cfg held
    exact enrols cfg (sound.clients machine cfg held)
  · intro token isIn
    obtain ⟨cfg, decoded, enrolled⟩ := sound.tokens token isIn
    exact ⟨cfg, decoded, enrols cfg enrolled⟩
  · intro shown isIn
    obtain ⟨origin, isOrigin, same⟩ := sound.summaries shown isIn
    exact ⟨origin, kept isOrigin, same⟩

theorem Fleet.Sound.generate (sound : fleet.Sound toml base64 tool) {origin : Origin Machine}
    (plain : Unescaped origin.dest) :
    (fleet.generate base64 origin).Sound toml base64 tool := by
  have more : { fleet with generated := fleet.generated ++ [origin] }.Sound toml base64 tool := by
    refine sound.extend (List.subset_append_left ..) (List.Subset.refl _) ?_
    intro other isIn
    rcases List.mem_append.mp isIn with earlier | last
    · exact sound.plain other earlier
    · rw [List.mem_singleton.mp last]
      exact plain
  refine more.setSite origin.machine ?_ ?_
  · intro cfg held
    exact ⟨origin, List.mem_append_right _ List.mem_cons_self, rfl, Option.some.inj held⟩
  · exact more.clients origin.machine

theorem Fleet.Sound.setClient (sound : fleet.Sound toml base64 tool) (machine : Machine)
    {cfg : List Char} (enrols : fleet.Enrols toml base64 cfg) :
    (fleet.setSite machine { fleet.sites machine with clientCfg := some cfg }).Sound toml base64
      tool := by
  refine sound.setSite machine (sound.servers machine) ?_
  intro other same
  rw [← Option.some.inj same]
  exact enrols

omit [DecidableEq Machine] in
/-- What is set up by hand is a client of the server whose values were typed. -/
theorem Fleet.Sound.manual (sound : fleet.Sound toml base64 tool) (lawful : base64.Lawful)
    (conforms : toml.Conforms) {machine : Machine} {keys : Generated} {answers : ManualAnswers}
    {overwrite : Bool} (copied : Copied fleet (.installManual machine keys answers overwrite))
    {cfg : List Char} (written : clientManual base64 keys answers = .ok cfg) :
    ∃ origin ∈ fleet.generated,
      answers = (generatedValues base64 origin.keys).answers answers.addr answers.p ∧
      ClientOf toml base64 (origin.cfg base64) answers.dest cfg := by
  obtain ⟨typed, plain, shown, isShown, isAnswers⟩ := copied
  obtain ⟨origin, isIn, rfl⟩ := sound.summaries shown isShown
  refine ⟨origin, isIn, isAnswers, ?_⟩
  rw [isAnswers, clientManual_summary lawful keys origin.keys typed plain] at written
  cases written
  exact clientOf_manual lawful conforms _ _ (sound.plain origin isIn) plain

theorem Fleet.Sound.step (sound : fleet.Sound toml base64 tool) (lawful : base64.Lawful)
    (toolLawful : tool.Lawful) (conforms : toml.Conforms) {command : Command Machine}
    (copied : Copied fleet command) (ran : runCommand base64 tool fleet command = some after) :
    after.Sound toml base64 tool := by
  cases runCommand_effect ran with
  | keepServer machine keys addr port cfg held =>
      obtain ⟨origin, isIn, -, rfl⟩ := sound.servers machine cfg held
      exact sound.showSummary lawful toolLawful conforms isIn
  | newServer origin addr port isDest absent =>
      have plain : Unescaped origin.dest := isDest ▸ copied
      refine (sound.generate plain).showSummary lawful toolLawful conforms ?_
      exact List.mem_append_right _ List.mem_cons_self
  | keepClient => exact sound
  | installClient machine bundle overwrite cfg decoded =>
      obtain ⟨installed, same, enrols⟩ := sound.tokens bundle copied
      cases Option.some.inj (decoded.symm.trans same)
      exact sound.setClient machine enrols
  | installManual machine keys answers overwrite cfg written =>
      obtain ⟨origin, isIn, isAnswers, clientOf⟩ := sound.manual lawful conforms copied written
      have noted := sound.extend (List.Subset.refl _) (List.subset_cons_self answers _) sound.plain
      refine noted.setClient machine ⟨origin, isIn, _, Or.inr ?_, clientOf⟩
      exact ⟨answers, List.mem_cons_self, rfl, isAnswers⟩
  | bundle machine cfg source =>
      apply sound.showBundle toolLawful
      cases server : (fleet.sites machine).serverCfg with
      | some held =>
          rw [Site.bundled, server, Option.some_or] at source
          cases source
          obtain ⟨origin, isIn, -, rfl⟩ := sound.servers machine cfg server
          exact ⟨origin, isIn, _, Or.inl rfl,
            clientOf_generated lawful conforms origin.keys (sound.plain origin isIn)⟩
      | none =>
          rw [Site.bundled, Site.findConfig, server, Option.none_or, Option.none_or] at source
          obtain ⟨origin, isIn, dest, addresses, clientOf⟩ := sound.clients machine cfg source
          exact ⟨origin, isIn, dest, addresses, clientOf.share⟩
  | uninstall machine removeServer removeClient =>
      refine sound.setSite machine ?_ ?_
      · intro cfg held
        dsimp only at held
        split at held
        · contradiction
        · exact sound.servers machine cfg held
      · intro cfg held
        dsimp only at held
        split at held
        · contradiction
        · exact sound.clients machine cfg held

theorem reachable_sound (lawful : base64.Lawful) (toolLawful : tool.Lawful)
    (conforms : toml.Conforms) (reached : Reach (runCommand base64 tool) Copied Fleet.start fleet) :
    fleet.Sound toml base64 tool := by
  apply reached.invariant (Fleet.Sound toml base64 tool) Fleet.start_sound
  intro before command after sound copied ran
  exact sound.step lawful toolLawful conforms copied ran

/-- Every configuration that was generated is still where it was. -/
def Fleet.Stands (base64 : Engine) (fleet : Fleet Machine) : Prop :=
  ∀ origin ∈ fleet.generated, (fleet.sites origin.machine).serverCfg = some (origin.cfg base64)

theorem Fleet.Stands.step (stands : fleet.Stands base64) {command : Command Machine}
    (keeps : ∀ machine, KeepsServer machine command)
    (ran : runCommand base64 tool fleet command = some after) : after.Stands base64 := by
  have earlier : ∀ origin ∈ fleet.generated,
      (after.sites origin.machine).serverCfg = some (origin.cfg base64) :=
    fun origin isIn => serverCfg_kept (stands origin isIn) (keeps origin.machine) ran
  cases runCommand_effect ran with
  | newServer origin addr port isDest absent =>
      intro other isIn
      rcases List.mem_append.mp isIn with before | last
      · exact earlier other before
      · rw [List.mem_singleton.mp last]
        exact congrArg Site.serverCfg (setSite_self fleet origin.machine _)
  | _ => exact earlier

variable (toml base64) in
/-- No line under the private key, and the configuration of a server with its address or
with one that was typed. -/
def Fleet.Follows (fleet : Fleet Machine) (cfg : List Char) : Prop :=
  (∀ line ∈ fileLines cfg, startsPrivateKey line = false) ∧
    ∃ origin ∈ fleet.generated, ∃ dest, fleet.Addresses base64 origin dest ∧
      Configures toml base64 (origin.cfg base64) dest cfg

omit [DecidableEq Machine] in
theorem Fleet.Enrols.follows {cfg : List Char} (enrols : fleet.Enrols toml base64 cfg) :
    fleet.Follows toml base64 cfg := by
  obtain ⟨origin, isIn, dest, addresses, clientOf⟩ := enrols
  exact ⟨clientOf.keyless, origin, isIn, dest, addresses, clientOf.configured⟩

/-- A client that is set up by hand keeps the address that was typed for it. -/
theorem Fleet.Sound.typed_kept (sound : fleet.Sound toml base64 tool) (lawful : base64.Lawful)
    (conforms : toml.Conforms) {machine : Machine} {keys : Generated} {answers : ManualAnswers}
    {overwrite : Bool} (copied : Copied fleet (.installManual machine keys answers overwrite))
    (writes : (fleet.sites machine).clientCfg = none ∨ overwrite = true)
    (ran : runCommand base64 tool fleet (.installManual machine keys answers overwrite) =
      some after) :
    ∃ cfg, (after.sites machine).clientCfg = some cfg ∧ ∃ origin ∈ fleet.generated,
      answers = (generatedValues base64 origin.keys).answers answers.addr answers.p ∧
      Configures toml base64 (origin.cfg base64) answers.dest cfg := by
  have asked : ((fleet.sites machine).clientCfg.isSome && !overwrite) = false := by
    rcases writes with absent | overwritten
    · rw [absent]
      rfl
    · rw [overwritten, Bool.not_true, Bool.and_false]
  rw [runCommand, Fleet.writeClient, asked, if_neg Bool.false_ne_true] at ran
  obtain ⟨cfg, isWritten, rfl⟩ := Option.map_eq_some_iff.mp ran
  have written : clientManual base64 keys answers = .ok cfg := by
    cases made : clientManual base64 keys answers with
    | error stop =>
        rw [made] at isWritten
        contradiction
    | ok result =>
        rw [made] at isWritten
        exact congrArg Except.ok (Option.some.inj isWritten)
  obtain ⟨origin, isIn, isAnswers, clientOf⟩ := sound.manual lawful conforms copied written
  refine ⟨cfg, ?_, origin, isIn, isAnswers, clientOf.configured⟩
  exact congrArg Site.clientCfg (setSite_self fleet machine _)

end Run

/-- Whatever is installed, printed, passed on and removed, on however many machines and
in whatever order: every client, and whatever a printed bundle installs, follows a
server that was generated.  The bundle of a server gives the server's own address, and a
client that is set up by hand has the one that was typed.  A server's configuration stays
the same until it is removed; while none is removed, every client follows one that is in
place. -/
theorem clients_follow_servers_in_place {Machine : Type} [DecidableEq Machine]
    (base64 : Engine) (lawful : base64.Lawful) (tool : Engine) (toolLawful : tool.Lawful)
    (toml : Parser) (conforms : toml.Conforms) (fleet : Fleet Machine)
    (reached : Reach (runCommand base64 tool) Copied Fleet.start fleet) :
    (∀ machine cfg, (fleet.sites machine).clientCfg = some cfg → fleet.Follows toml base64 cfg) ∧
    (∀ token ∈ fleet.tokens, ∃ cfg, clientFromBundle tool token = some cfg ∧
      fleet.Follows toml base64 cfg) ∧
    (∀ machine serverCfg, (fleet.sites machine).serverCfg = some serverCfg →
      ∃ origin ∈ fleet.generated, origin.machine = machine ∧ origin.cfg base64 = serverCfg ∧
        ∃ cfg, clientFromBundle tool (shownBundle tool serverCfg) = some cfg ∧
          Configures toml base64 serverCfg origin.dest cfg) ∧
    (∀ machine keys answers overwrite after,
      Copied fleet (.installManual machine keys answers overwrite) →
      ((fleet.sites machine).clientCfg = none ∨ overwrite = true) →
      runCommand base64 tool fleet (.installManual machine keys answers overwrite) = some after →
      ∃ cfg, (after.sites machine).clientCfg = some cfg ∧ ∃ origin ∈ fleet.generated,
        answers = (generatedValues base64 origin.keys).answers answers.addr answers.p ∧
        Configures toml base64 (origin.cfg base64) answers.dest cfg) ∧
    (∀ machine cfg, (fleet.sites machine).serverCfg = some cfg → ∀ later,
      Reach (runCommand base64 tool) (fun _ => KeepsServer machine) fleet later →
        (later.sites machine).serverCfg = some cfg) ∧
    (Reach (runCommand base64 tool)
        (fun before command => Copied before command ∧ ∀ machine, KeepsServer machine command)
        Fleet.start fleet →
      ∀ machine cfg, (fleet.sites machine).clientCfg = some cfg →
        ∃ origin ∈ fleet.generated,
          (fleet.sites origin.machine).serverCfg = some (origin.cfg base64) ∧
          ∃ dest, fleet.Addresses base64 origin dest ∧
            Configures toml base64 (origin.cfg base64) dest cfg) := by
  have sound : fleet.Sound toml base64 tool := reachable_sound lawful toolLawful conforms reached
  refine ⟨?_, ?_, ?_, ?_, ?_, ?_⟩
  · intro machine cfg held
    exact (sound.clients machine cfg held).follows
  · intro token isIn
    obtain ⟨cfg, decoded, enrols⟩ := sound.tokens token isIn
    exact ⟨cfg, decoded, enrols.follows⟩
  · intro machine serverCfg held
    obtain ⟨origin, isIn, isMachine, rfl⟩ := sound.servers machine serverCfg held
    have clientOf := clientOf_generated lawful conforms origin.keys (sound.plain origin isIn)
    exact ⟨origin, isIn, isMachine, rfl, _, passOn_eq toolLawful _, clientOf.configured⟩
  · intro machine keys answers overwrite after copied writes ran
    exact sound.typed_kept lawful conforms copied writes ran
  · intro machine cfg held later onward
    apply onward.invariant (fun state => (state.sites machine).serverCfg = some cfg) held
    intro before command after still keeps ran
    exact serverCfg_kept still keeps ran
  · intro kept machine cfg held
    have stands : fleet.Stands base64 := by
      apply kept.invariant (Fleet.Stands base64)
      · intro origin isIn
        exact absurd isIn List.not_mem_nil
      · intro before command after still allowed ran
        exact still.step allowed.2 ran
    obtain ⟨origin, isIn, dest, addresses, clientOf⟩ := sound.clients machine cfg held
    exact ⟨origin, isIn, stands origin isIn, dest, addresses, clientOf.configured⟩

/-- The server's bundle installs a client, and this client's bundle another one. -/
def handedOn (base64 tool : Engine) (keys : Generated) (addr port : List Char) :
    List (Command Nat) :=
  let cfg := (⟨0, keys, addr ++ ':' :: port⟩ : Origin Nat).cfg base64
  [.installServer 0 keys addr port,
    .installClient 1 (shownBundle tool cfg) false,
    .doBundle 1,
    .installClient 2 (shownBundle tool (clientToml cfg ++ ['\n'])) false]

theorem writeClient_absent {Machine : Type} [DecidableEq Machine] {fleet : Fleet Machine}
    {machine : Machine} (absent : (fleet.sites machine).clientCfg = none) (overwrite : Bool)
    (cfg : List Char) : fleet.writeClient machine overwrite (some cfg) [] =
      some (fleet.setSite machine { fleet.sites machine with clientCfg := some cfg }) := by
  rw [Fleet.writeClient, absent, Option.isSome_none, Bool.false_and, if_neg Bool.false_ne_true]
  rfl

theorem handedOn_runs (base64 : Engine) {tool : Engine} (toolLawful : tool.Lawful)
    (keys : Generated) {addr port : List Char} (typed : addr ≠ [])
    (plain : Unescaped (addr ++ ':' :: port)) :
    ∃ fleet : Fleet Nat,
      runAll (runCommand base64 tool) Fleet.start (handedOn base64 tool keys addr port) =
        some fleet ∧
      (∃ cfg, (fleet.sites 2).clientCfg = some cfg) ∧ (fleet.sites 3).clientCfg = none ∧
      fleet.generated = [⟨0, keys, addr ++ ':' :: port⟩] ∧ fleet.typed = [] ∧
      fleet.summaries =
        [printServerSummary ((⟨0, keys, addr ++ ':' :: port⟩ : Origin Nat).cfg base64)] ∧
      Along (runCommand base64 tool)
        (fun before command => Copied before command ∧ ∀ machine, KeepsServer machine command)
        Fleet.start (handedOn base64 tool keys addr port) := by
  let origin : Origin Nat := ⟨0, keys, addr ++ ':' :: port⟩
  let cfg := origin.cfg base64
  let first := clientToml cfg ++ ['\n']
  let served := (Fleet.start.generate base64 origin).showSummary tool cfg
  let joined := served.setSite 1 { served.sites 1 with clientCfg := some first }
  let shown := joined.showBundle tool first
  let spread := shown.setSite 2
    { shown.sites 2 with clientCfg := some (clientToml first ++ ['\n']) }
  have pasted : ∀ text, clientFromBundle tool (shownBundle tool text) =
      some (clientToml text ++ ['\n']) := passOn_eq toolLawful
  have serves : runCommand base64 tool Fleet.start (.installServer 0 keys addr port) =
      some served := if_neg typed
  have joins : runCommand base64 tool served (.installClient 1 (shownBundle tool cfg) false) =
      some joined := by
    rw [runCommand, pasted]
    exact writeClient_absent rfl false first
  have shows : runCommand base64 tool joined (.doBundle 1) = some shown := rfl
  have spreads : runCommand base64 tool shown
      (.installClient 2 (shownBundle tool first) false) = some spread := by
    rw [runCommand, pasted]
    exact writeClient_absent rfl false _
  refine ⟨spread, ?_, ⟨_, rfl⟩, rfl, rfl, rfl, rfl, ?_⟩
  · rw [handedOn, runAll, serves, Option.bind_some, runAll, joins, Option.bind_some, runAll, shows,
      Option.bind_some, runAll, spreads]
    rfl
  · refine ⟨⟨plain, fun _ => trivial⟩, fun _ taken => ?_⟩
    cases Option.some.inj (serves.symm.trans taken)
    refine ⟨⟨List.mem_cons_self, fun _ => trivial⟩, fun _ taken => ?_⟩
    cases Option.some.inj (joins.symm.trans taken)
    refine ⟨⟨trivial, fun _ => trivial⟩, fun _ taken => ?_⟩
    cases Option.some.inj (shows.symm.trans taken)
    refine ⟨⟨?_, fun _ => trivial⟩, fun _ _ => trivial⟩
    exact List.mem_append_right _ List.mem_cons_self

/-- Of the server's summary, but for the address. -/
def relayAnswers (base64 : Engine) (keys : Generated) : ManualAnswers :=
  (generatedValues base64 keys).answers "198.51.100.4".toList "8443".toList

theorem second_client_follows_server :
    ∃ fleet : Fleet Nat, runAll (runCommand standard standard) Fleet.start
        (handedOn standard standard zeroKeys "203.0.113.7".toList "443".toList) = some fleet ∧
      (∃ cfg, (fleet.sites 2).clientCfg = some cfg ∧ ∃ origin ∈ fleet.generated,
        (fleet.sites origin.machine).serverCfg = some (origin.cfg standard) ∧
          Configures reader standard (origin.cfg standard) origin.dest cfg) ∧
      ∃ after, runCommand standard standard fleet
          (.installManual 3 zeroKeys (relayAnswers standard zeroKeys) false) = some after ∧
        ∃ cfg, (after.sites 3).clientCfg = some cfg ∧ ∃ origin ∈ fleet.generated,
          Configures reader standard (origin.cfg standard) "198.51.100.4:8443".toList cfg := by
  have plain : Unescaped ("203.0.113.7".toList ++ ':' :: "443".toList) := by decide
  have plainTyped : Unescaped ("198.51.100.4".toList ++ ':' :: "8443".toList) := by decide
  obtain ⟨fleet, ran, ⟨cfg, held⟩, absent, generated, typed, summaries, along⟩ :=
    handedOn_runs standard standard_lawful zeroKeys (by decide : "203.0.113.7".toList ≠ []) plain
  have reached := reach_of_along ran along
  have follows := clients_follow_servers_in_place standard standard_lawful standard
    standard_lawful reader reader_conforms fleet (reached.mono fun _ _ allowed => allowed.1)
  obtain ⟨-, -, -, byHand, -, inPlace⟩ := follows
  refine ⟨fleet, ran, ⟨cfg, held, ?_⟩, ?_⟩
  · obtain ⟨origin, isIn, stands, dest, rfl | ⟨answers, isTyped, -⟩, configures⟩ :=
      inPlace reached 2 cfg held
    · exact ⟨origin, isIn, stands, configures⟩
    · rw [typed] at isTyped
      exact absurd isTyped List.not_mem_nil
  · have shown := printServerSummary_generated standard_lawful zeroKeys plain
    have copied : Copied fleet
        (.installManual 3 zeroKeys (relayAnswers standard zeroKeys) false) := by
      refine ⟨by decide, plainTyped, generatedValues standard zeroKeys, ?_, rfl⟩
      rw [summaries, List.mem_singleton]
      exact shown.symm
    have written := clientManual_summary standard_lawful zeroKeys zeroKeys
      (by decide : "198.51.100.4".toList ≠ []) plainTyped
    have installs : ∃ after, runCommand standard standard fleet
        (.installManual 3 zeroKeys (relayAnswers standard zeroKeys) false) = some after := by
      rw [runCommand, relayAnswers, written, Fleet.writeClient, absent]
      exact ⟨_, rfl⟩
    obtain ⟨after, installed⟩ := installs
    obtain ⟨file, isFile, origin, isIn, -, configures⟩ :=
      byHand 3 _ _ _ after copied (Or.inl absent) installed
    exact ⟨after, installed, file, isFile, origin, isIn, configures⟩

end RealityHydra.Setup
