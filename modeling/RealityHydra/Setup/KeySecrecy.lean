import RealityHydra.Setup.Fleet

/-!
# Where the private keys go

Two runs of the script on the same machines, with the same answers at its prompts,
differ only in the private keys that `init` generates.  No one who sees what is printed
and what is installed on the clients can tell them apart.
-/

set_option autoImplicit false

namespace RealityHydra.Setup

open RealityHydra.HydraCli
open RealityHydra.Lib.Base64
open RealityHydra.Lib.LineEditing
open RealityHydra.Lib.Toml
open RealityHydra.Lib.TomlGrammar (Grammar)
open RealityHydra.Lib.Transition
open RealityHydra.PoolEngine (RealitySettings)

/-- All that is generated for a server, but for its private key. -/
structure SamePublic (keys keys' : Generated) : Prop where
  masterSecret : keys.masterSecret = keys'.masterSecret
  saltSrc : keys.saltSrc = keys'.saltSrc
  sidSrc : keys.sidSrc = keys'.sidSrc
  publicKey : keys.reality.publicKey = keys'.reality.publicKey

section Documents

variable {base64 : Engine} {keys keys' : Generated}

theorem SamePublic.bundledDocument (same : SamePublic keys keys') (args : InitArgs) :
    Setup.bundledDocument base64 keys args = Setup.bundledDocument base64 keys' args := by
  obtain ⟨secret, salt, sid, ⟨_, pbk⟩⟩ := keys
  obtain ⟨secret', salt', sid', ⟨_, pbk'⟩⟩ := keys'
  obtain ⟨rfl, rfl, rfl, same⟩ := same
  cases same
  rfl

theorem SamePublic.generatedValues (same : SamePublic keys keys') :
    Setup.generatedValues base64 keys = Setup.generatedValues base64 keys' := by
  obtain ⟨secret, salt, sid, ⟨_, pbk⟩⟩ := keys
  obtain ⟨secret', salt', sid', ⟨_, pbk'⟩⟩ := keys'
  obtain ⟨rfl, rfl, rfl, same⟩ := same
  cases same
  rfl

/-- Two configurations of a server that differ in the private key. -/
def ServersAlike (base64 : Engine) (cfg cfg' : List Char) : Prop :=
  ∃ keys keys' dest, SamePublic keys keys' ∧ Unescaped dest ∧
    cfg = (renderConfig base64 keys (serverInit dest)).1.toList ∧
    cfg' = (renderConfig base64 keys' (serverInit dest)).1.toList

variable (lawful : base64.Lawful) {cfg cfg' : List Char}

include lawful

theorem ServersAlike.clientToml (alike : ServersAlike base64 cfg cfg') :
    Setup.clientToml cfg = Setup.clientToml cfg' := by
  obtain ⟨keys, keys', dest, same, plain, isCfg, isCfg'⟩ := alike
  have written : Unescaped (serverInit dest).dest.toList := serverInit_dest plain
  have bundled := (clientToml_init lawful (@serverInit_produces base64 keys dest) written
    defaultArgs_epochLen).2
  have bundled' := (clientToml_init lawful (@serverInit_produces base64 keys' dest) written
    defaultArgs_epochLen).2
  rw [same.bundledDocument, ← bundled', ← isCfg, ← isCfg'] at bundled
  exact List.append_cancel_right bundled

theorem ServersAlike.summary (alike : ServersAlike base64 cfg cfg') :
    printServerSummary cfg = printServerSummary cfg' := by
  obtain ⟨keys, keys', dest, same, plain, isCfg, isCfg'⟩ := alike
  rw [isCfg, isCfg', printServerSummary_generated lawful keys plain,
    printServerSummary_generated lawful keys' plain, same.generatedValues]

/-- The file made by hand holds what was typed and nothing that was generated. -/
theorem clientManual_keys (keys keys' : Generated) {answers : ManualAnswers}
    (plain : Unescaped answers.dest) :
    clientManual base64 keys answers = clientManual base64 keys' answers := by
  have edited := edited_init answers.rewrite lawful keys plain
  have edited' := edited_init answers.rewrite lawful keys' plain
  simp only [clientManual, edited, edited']
  -- Every line that held a generated value has been edited or deleted.
  rfl

end Documents

/-! ## Of all machines -/

section Run

variable {Machine : Type}

/-- The same run of the script, with other private keys generated. -/
inductive Alike : Command Machine → Command Machine → Prop where
  | installServer (machine : Machine) {keys keys' : Generated} {addr port : List Char}
      (same : SamePublic keys keys') (plain : Unescaped (addr ++ ':' :: port)) :
      Alike (.installServer machine keys addr port) (.installServer machine keys' addr port)
  | installClient (machine : Machine) (bundle : List Char) (overwrite : Bool) :
      Alike (.installClient machine bundle overwrite) (.installClient machine bundle overwrite)
  | installManual (machine : Machine) (keys keys' : Generated) {answers : ManualAnswers}
      (overwrite : Bool) (plain : Unescaped answers.dest) :
      Alike (.installManual machine keys answers overwrite)
        (.installManual machine keys' answers overwrite)
  | doBundle (machine : Machine) : Alike (.doBundle machine) (.doBundle machine)
  | doUninstall (machine : Machine) (removeServer removeClient : Bool) :
      Alike (.doUninstall machine removeServer removeClient)
        (.doUninstall machine removeServer removeClient)

/-- Only the files of the servers differ, and only in the private key. -/
structure Indistinct (base64 : Engine) (fleet fleet' : Fleet Machine) : Prop where
  tokens : fleet.tokens = fleet'.tokens
  summaries : fleet.summaries = fleet'.summaries
  clients : ∀ machine, (fleet.sites machine).clientCfg = (fleet'.sites machine).clientCfg
  servers : ∀ machine, Option.Rel (ServersAlike base64) (fleet.sites machine).serverCfg
    (fleet'.sites machine).serverCfg

variable {base64 tool : Engine} {fleet fleet' : Fleet Machine}

theorem Indistinct.showBundle (indistinct : Indistinct base64 fleet fleet') {cfg cfg' : List Char}
    (same : clientToml cfg = clientToml cfg') :
    Indistinct base64 (fleet.showBundle tool cfg) (fleet'.showBundle tool cfg') where
  tokens := by
    have shown : shownBundle tool cfg = shownBundle tool cfg' := by
      rw [shownBundle, shownBundle, makeBundle, makeBundle, String.toList_ofList,
        String.toList_ofList, same]
    rw [Fleet.showBundle, Fleet.showBundle, indistinct.tokens, shown]
  summaries := indistinct.summaries
  clients := indistinct.clients
  servers := indistinct.servers

theorem Indistinct.showSummary (indistinct : Indistinct base64 fleet fleet')
    (lawful : base64.Lawful) {cfg cfg' : List Char} (alike : ServersAlike base64 cfg cfg') :
    Indistinct base64 (fleet.showSummary tool cfg) (fleet'.showSummary tool cfg') := by
  have shown : Indistinct base64 (fleet.showBundle tool cfg) (fleet'.showBundle tool cfg') :=
    indistinct.showBundle (alike.clientToml lawful)
  refine ⟨shown.tokens, ?_, shown.clients, shown.servers⟩
  rw [Fleet.showSummary, Fleet.showSummary, indistinct.summaries, alike.summary lawful]

variable [DecidableEq Machine]

theorem Indistinct.setSite (indistinct : Indistinct base64 fleet fleet') (machine : Machine)
    {site site' : Site} (client : site.clientCfg = site'.clientCfg)
    (server : Option.Rel (ServersAlike base64) site.serverCfg site'.serverCfg) :
    Indistinct base64 (fleet.setSite machine site) (fleet'.setSite machine site') where
  tokens := indistinct.tokens
  summaries := indistinct.summaries
  clients other := by
    by_cases same : other = machine
    · subst same
      rw [setSite_self, setSite_self]
      exact client
    · rw [setSite_other fleet same, setSite_other fleet' same]
      exact indistinct.clients other
  servers other := by
    by_cases same : other = machine
    · subst same
      rw [setSite_self, setSite_self]
      exact server
    · rw [setSite_other fleet same, setSite_other fleet' same]
      exact indistinct.servers other

theorem Indistinct.writeClient (indistinct : Indistinct base64 fleet fleet') (machine : Machine)
    (overwrite : Bool) (written : Option (List Char)) (typed : List ManualAnswers) :
    Option.Rel (Indistinct base64) (fleet.writeClient machine overwrite written typed)
      (fleet'.writeClient machine overwrite written typed) := by
  rw [Fleet.writeClient, Fleet.writeClient, indistinct.clients machine]
  split
  · exact Option.Rel.some indistinct
  · cases written with
    | none => exact Option.Rel.none
    | some cfg =>
        have set : Indistinct base64
            (fleet.setSite machine { fleet.sites machine with clientCfg := some cfg })
            (fleet'.setSite machine { fleet'.sites machine with clientCfg := some cfg }) :=
          indistinct.setSite machine rfl (indistinct.servers machine)
        exact Option.Rel.some ⟨set.tokens, set.summaries, set.clients, set.servers⟩

theorem Indistinct.step (indistinct : Indistinct base64 fleet fleet') (lawful : base64.Lawful)
    {command command' : Command Machine} (alike : Alike command command') :
    Option.Rel (Indistinct base64) (runCommand base64 tool fleet command)
      (runCommand base64 tool fleet' command') := by
  have held := indistinct.servers
  cases alike with
  | @installServer machine keys keys' addr port same plain =>
      rw [runCommand, runCommand]
      by_cases missing : addr = []
      · rw [if_pos missing, if_pos missing]
        exact Option.Rel.none
      · rw [if_neg missing, if_neg missing]
        specialize held machine
        generalize isServer : (fleet.sites machine).serverCfg = server at held
        generalize isServer' : (fleet'.sites machine).serverCfg = server' at held
        cases held with
        | some alike => exact Option.Rel.some (indistinct.showSummary lawful alike)
        | none =>
            have generated : ServersAlike base64
                ((⟨machine, keys, addr ++ ':' :: port⟩ : Origin Machine).cfg base64)
                ((⟨machine, keys', addr ++ ':' :: port⟩ : Origin Machine).cfg base64) :=
              ⟨keys, keys', _, same, plain, rfl, rfl⟩
            have set : Indistinct base64
                (fleet.setSite machine ⟨some _, (fleet.sites machine).clientCfg⟩)
                (fleet'.setSite machine ⟨some _, (fleet'.sites machine).clientCfg⟩) :=
              indistinct.setSite machine (indistinct.clients machine) (Option.Rel.some generated)
            have made : Indistinct base64
                (fleet.generate base64 ⟨machine, keys, addr ++ ':' :: port⟩)
                (fleet'.generate base64 ⟨machine, keys', addr ++ ':' :: port⟩) :=
              ⟨set.tokens, set.summaries, set.clients, set.servers⟩
            exact Option.Rel.some (made.showSummary lawful generated)
  | installClient machine bundle overwrite => exact indistinct.writeClient machine overwrite _ _
  | installManual machine keys keys' overwrite plain =>
      rw [runCommand, runCommand, clientManual_keys lawful keys keys' plain]
      exact indistinct.writeClient machine overwrite _ _
  | doBundle machine =>
      rw [runCommand, runCommand, Site.bundled, Site.bundled, Site.findConfig, Site.findConfig,
        indistinct.clients machine]
      specialize held machine
      generalize (fleet.sites machine).serverCfg = server at held
      generalize (fleet'.sites machine).serverCfg = server' at held
      cases held with
      | some alike => exact Option.Rel.some (indistinct.showBundle (alike.clientToml lawful))
      | none =>
          cases (fleet'.sites machine).clientCfg with
          | none => exact Option.Rel.none
          | some cfg => exact Option.Rel.some (indistinct.showBundle rfl)
  | doUninstall machine removeServer removeClient =>
      refine Option.Rel.some (indistinct.setSite machine ?_ ?_)
      · dsimp only
        rw [indistinct.clients machine]
      · cases removeServer with
        | true => exact Option.Rel.none
        | false => exact held machine

end Run

/-- Whatever private keys the servers have had generated, on however many machines and in
whatever order the script is run, the same is printed and the same is installed on
the clients. -/
theorem private_keys_stay_on_their_server {Machine : Type} [DecidableEq Machine]
    (base64 : Engine) (lawful : base64.Lawful) (tool : Engine)
    (commands commands' : List (Command Machine)) (alike : List.Forall₂ Alike commands commands') :
    (runAll (runCommand base64 tool) Fleet.start commands = none ↔
      runAll (runCommand base64 tool) Fleet.start commands' = none) ∧
    ∀ fleet fleet', runAll (runCommand base64 tool) Fleet.start commands = some fleet →
      runAll (runCommand base64 tool) Fleet.start commands' = some fleet' →
        fleet.tokens = fleet'.tokens ∧ fleet.summaries = fleet'.summaries ∧
          ∀ machine, (fleet.sites machine).clientCfg = (fleet'.sites machine).clientCfg := by
  have start : Indistinct base64 (Fleet.start : Fleet Machine) Fleet.start :=
    ⟨rfl, rfl, fun _ => rfl, fun _ => Option.Rel.none⟩
  have related : Option.Rel (Indistinct base64)
      (runAll (runCommand base64 tool) Fleet.start commands)
      (runAll (runCommand base64 tool) Fleet.start commands') :=
    runAll_related (Indistinct base64) Alike
      (fun _ _ _ _ indistinct same => indistinct.step lawful same) start alike
  generalize runAll (runCommand base64 tool) Fleet.start commands = result,
    runAll (runCommand base64 tool) Fleet.start commands' = result' at related ⊢
  cases related with
  | none =>
      refine ⟨Iff.rfl, ?_⟩
      intro fleet fleet' ran
      contradiction
  | some indistinct =>
      refine ⟨iff_of_false (Option.some_ne_none _) (Option.some_ne_none _), ?_⟩
      intro fleet fleet' ran ran'
      cases ran
      cases ran'
      exact ⟨indistinct.tokens, indistinct.summaries, indistinct.clients⟩

/-- A server is installed, and its bundle shown once more. -/
def shownTwice (keys : Generated) (addr port : List Char) : List (Command Nat) :=
  [.installServer 0 keys addr port, .doBundle 0]

theorem shownTwice_runs (base64 tool : Engine) (keys : Generated) {addr : List Char}
    (typed : addr ≠ []) (port : List Char) :
    ∃ fleet, runAll (runCommand base64 tool) Fleet.start (shownTwice keys addr port) =
        some fleet ∧
      (fleet.sites 0).serverCfg =
        some (renderConfig base64 keys (serverInit (addr ++ ':' :: port))).1.toList := by
  let origin : Origin Nat := ⟨0, keys, addr ++ ':' :: port⟩
  let served := (Fleet.start.generate base64 origin).showSummary tool (origin.cfg base64)
  have serves : runCommand base64 tool Fleet.start (.installServer 0 keys addr port) =
      some served := if_neg typed
  refine ⟨served.showBundle tool (origin.cfg base64), ?_, rfl⟩
  rw [shownTwice, runAll, serves, Option.bind_some]
  rfl

theorem generated_ne_of_privateKey {base64 : Engine} {toml : Parser} (lawful : base64.Lawful)
    (conforms : toml.Conforms) {keys keys' : Generated} {dest : List Char}
    (plain : Unescaped dest) (other : keys.reality.privateKey ≠ keys'.reality.privateKey) :
    (renderConfig base64 keys (serverInit dest)).1 ≠
      (renderConfig base64 keys' (serverInit dest)).1 := by
  intro same
  obtain ⟨server, loaded, -, back⟩ := generated_loads lawful conforms keys plain
  obtain ⟨server', loaded', -, back'⟩ := generated_loads lawful conforms keys' plain
  rw [same, loaded'] at loaded
  cases loaded
  have reality := back.reality.symm.trans back'.reality
  rw [Option.some.injEq, RealitySettings.mk.injEq, Option.some.injEq] at reality
  exact other reality.1

def sevenKeys : Generated :=
  { zeroKeys with reality := { zeroKeys.reality with privateKey := Vector.replicate _ 7 } }

theorem two_private_keys_print_alike :
    ∃ fleet fleet' : Fleet Nat,
      runAll (runCommand standard standard) Fleet.start
        (shownTwice zeroKeys "203.0.113.7".toList "443".toList) = some fleet ∧
      runAll (runCommand standard standard) Fleet.start
        (shownTwice sevenKeys "203.0.113.7".toList "443".toList) = some fleet' ∧
      (fleet.sites 0).serverCfg ≠ (fleet'.sites 0).serverCfg ∧ fleet.tokens = fleet'.tokens := by
  have typed : "203.0.113.7".toList ≠ [] := by decide
  have plain : Unescaped ("203.0.113.7".toList ++ ':' :: "443".toList) := by decide
  obtain ⟨fleet, ran, held⟩ := shownTwice_runs standard standard zeroKeys typed "443".toList
  obtain ⟨fleet', ran', held'⟩ := shownTwice_runs standard standard sevenKeys typed "443".toList
  have alike : List.Forall₂ Alike (shownTwice zeroKeys "203.0.113.7".toList "443".toList)
      (shownTwice sevenKeys "203.0.113.7".toList "443".toList) :=
    .cons (.installServer 0 ⟨rfl, rfl, rfl, rfl⟩ plain) (.cons (.doBundle 0) .nil)
  obtain ⟨-, same⟩ :=
    private_keys_stay_on_their_server standard standard_lawful standard _ _ alike
  refine ⟨fleet, fleet', ran, ran', ?_, (same fleet fleet' ran ran').1⟩
  rw [held, held']
  intro equal
  have other : zeroKeys.reality.privateKey ≠ sevenKeys.reality.privateKey := by decide
  exact generated_ne_of_privateKey standard_lawful reader_conforms plain other
    (String.toList_inj.mp (Option.some.inj equal))

end RealityHydra.Setup
