import RealityHydra.HydraServer.CertStore
import RealityHydra.Setup.Installed

/-!
# Enrolling a client with the printed pin

`hydra server` prints the pin of the pair it serves as a line of TOML.  Put in front
of what a bundle installs, that line makes the client take the certificate of this
pair and of no other, and as long as neither file is deleted every later start serves
the same pair.
-/

set_option autoImplicit false

namespace RealityHydra.System

open RealityHydra.HydraCli
open RealityHydra.HydraClient
open RealityHydra.HydraServer
open RealityHydra.Lib.Base64
open RealityHydra.Lib.Files
open RealityHydra.Lib.Toml
open RealityHydra.Lib.Transition
open RealityHydra.Lib.Traversal
open RealityHydra.PoolEngine
open RealityHydra.Primitives
open RealityHydra.Setup
open TlsMaterial (loadOrGenerate_outcome Outcome)

/-! ## The pair that is served -/

section Served

variable {sha256 : Sha256} {dir : String} {store : Store} {launch : Launch}

/-- The pair of files, as a start that finds them reads it. -/
structure Serves (sha256 : Sha256) (dir : String) (material : TlsMaterial) (store : Store) :
    Prop where
  cert : store.files (derPaths dir).1 = some material.certDer
  key : store.files (derPaths dir).2 = some material.keyDer
  pin : material.pin = sha256 material.certDer

/-- Neither file is deleted. -/
def KeepsFiles (_ : Store) : StoreAction → Prop
  | .start _ => True
  | _ => False

/-- A start that ran to its end serves what it has returned. -/
theorem serves_of_returned (whole : launch.cut = none) {material : TlsMaterial} {fresh : Bool}
    (returned : (store.attempt sha256 dir launch).result = .ok (material, fresh)) :
    Serves sha256 dir material (store.start sha256 dir launch) := by
  have outcome := loadOrGenerate_outcome sha256 store.files dir launch.selfSigned launch.sans
  rw [Store.start]
  rw [Store.attempt] at returned ⊢
  generalize TlsMaterial.loadOrGenerate sha256 store.files dir launch.selfSigned launch.sans =
    attempt at outcome returned ⊢
  cases outcome with
  | malformed => cases returned
  | fails => cases returned
  | loads cert key certThere keyThere nonEmpty =>
      cases returned
      obtain ⟨pin, settled, -⟩ := store.settle_of_idle dir launch
        ⟨[], .ok (⟨cert, key, sha256 cert⟩, false)⟩ rfl rfl
      rw [settled]
      exact ⟨certThere, keyThere, rfl⟩
  | generates made missing signed =>
      cases returned
      have left := files_of_count dir store.files made
        (made.certDer.length + made.keyDer.length + 2)
      rw [List.take_of_length_le (by simp; omega), if_neg (by omega), if_neg (by omega),
        List.take_of_length_le (by omega), List.take_of_length_le (by omega)] at left
      simp only [Store.settle, whole]
      exact ⟨left.1, left.2, rfl⟩

variable {material : TlsMaterial}

/-- Where both files are there a start returns them, or cannot read them, and leaves
them alone. -/
theorem Serves.attempt (serves : Serves sha256 dir material store) (launch : Launch) :
    (store.attempt sha256 dir launch).ops = [] ∧
      (store.attempt sha256 dir launch).made = none ∧
      (material.certDer ≠ [] →
        (store.attempt sha256 dir launch).result = .ok (material, false)) := by
  have outcome := loadOrGenerate_outcome sha256 store.files dir launch.selfSigned launch.sans
  rw [Store.attempt]
  generalize TlsMaterial.loadOrGenerate sha256 store.files dir launch.selfSigned launch.sans =
    attempt at outcome ⊢
  cases outcome with
  | loads cert key certThere keyThere nonEmpty =>
      refine ⟨rfl, rfl, ?_⟩
      intro _
      cases Option.some.inj (serves.cert.symm.trans certThere)
      cases Option.some.inj (serves.key.symm.trans keyThere)
      rw [← serves.pin]
  | malformed key certThere keyThere error =>
      refine ⟨rfl, rfl, ?_⟩
      intro someByte
      exact absurd (Option.some.inj (serves.cert.symm.trans certThere)) someByte
  | fails missing error => exact absurd missing (not_missing serves.cert serves.key)
  | generates made missing signed => exact absurd missing (not_missing serves.cert serves.key)

theorem Serves.step {next : Store} {action : StoreAction}
    (serves : Serves sha256 dir material store) (keeps : KeepsFiles store action)
    (taken : storeStep sha256 dir store action = some next) : Serves sha256 dir material next := by
  cases action with
  | deleteCert => exact keeps.elim
  | deleteKey => exact keeps.elim
  | start launch =>
      cases taken
      obtain ⟨noOps, noneMade, -⟩ := serves.attempt launch
      obtain ⟨pin, settled, -⟩ := store.settle_of_idle dir launch _ noOps noneMade
      rw [Store.start, settled]
      exact ⟨serves.cert, serves.key, serves.pin⟩

/-- Whatever is started and cut off, the next start serves the same pair. -/
theorem Serves.run {later : Store} (serves : Serves sha256 dir material store)
    (someByte : material.certDer ≠ [])
    (reached : Reach (storeStep sha256 dir) KeepsFiles store later) (again : Launch) :
    (later.attempt sha256 dir again).result = .ok (material, false) := by
  have still := reached.invariant (Serves sha256 dir material) serves
    fun _ _ _ held keeps taken => held.step keeps taken
  exact (still.attempt again).2.2 someByte

end Served

/-! ## The printed line -/

section Pinned

variable (base64 : Engine) (material : TlsMaterial)

def pinBase64 : List Char := base64.encode material.pin.toList

/-- What `hydra server` prints on every start. -/
def printedPin : List Char := "cert_pin = \"".toList ++ pinBase64 base64 material ++ ['"', '\n']

def pinnedDocument (keys : Generated) (args : InitArgs) : List Line :=
  plainEntry "cert_pin" 1 (.string (pinBase64 base64 material)) ::
    bundledDocument base64 keys args

def pinnedRaw (keys : Generated) (args : InitArgs) : RawConfig :=
  { rawConfigWithoutKey (writtenConfig base64 keys args) with
    certPin := some (String.ofList (pinBase64 base64 material)) }

def pinnedConfig (server : HydraConfig) (material : TlsMaterial) : HydraConfig :=
  { withoutPrivateKey server with certPin := some material.pin }

variable (keys : Generated) (args : InitArgs)

theorem pinLine_lines (pin : List Char) : (plainEntry "cert_pin" 1 (.string pin)).lines =
    ["cert_pin = \"".toList ++ pin ++ ['"']] := by
  simp [plainEntry, Line.lines, Literal.lines, entryFront, noteChars, quoted]

theorem render_pinLine (pin : List Char) :
    Lib.Toml.render [plainEntry "cert_pin" 1 (.string pin)] =
      "cert_pin = \"".toList ++ pin ++ ['"', '\n'] := by
  rw [Lib.Toml.render, List.flatMap_singleton, pinLine_lines, List.flatMap_singleton,
    List.append_assoc]
  rfl

theorem render_pinnedDocument :
    Lib.Toml.render (pinnedDocument base64 material keys args) =
      printedPin base64 material ++ Lib.Toml.render (bundledDocument base64 keys args) := by
  unfold printedPin
  rw [← render_pinLine, ← render_append, List.singleton_append, pinnedDocument]

theorem meaning_pinnedDocument :
    meaning (pinnedDocument base64 material keys args) =
      some (("cert_pin".toList, .string (pinBase64 base64 material)) ::
        bundledTable base64 keys args) := by
  have rootKeys : (("cert_pin".toList, Value.string (pinBase64 base64 material)) ::
      networkTable base64 keys args).map Prod.fst =
      ["cert_pin", "master_secret", "server_salt", "pool_format", "epoch_len", "active_k", "dest",
        "coherence_cidrs"].map String.toList := rfl
  have sectionKeys : ((("cert_pin".toList, Value.string (pinBase64 base64 material)) ::
      networkTable base64 keys args) ++
        [("reality".toList, Value.table (realityTable base64 keys).tail)]).map Prod.fst =
      ["cert_pin", "master_secret", "server_salt", "pool_format", "epoch_len", "active_k", "dest",
        "coherence_cidrs", "reality"].map String.toList := rfl
  have read : meaning (pinnedDocument base64 material keys args) =
      some ((("cert_pin".toList, Value.string (pinBase64 base64 material)) ::
        networkTable base64 keys args) ++
          [("reality".toList, .table (realityTable base64 keys).tail)] ++
            [("pool".toList, .array ((defaultPool.map poolTable).map .table))]) := by
    apply meaning_of_sections
    · rfl
    · exact distinct_of_names _ rootKeys (by decide)
    · exact distinct_of_names ["public_key", "short_ids", "fingerprint"] rfl (by decide)
    · intro entries isIn
      obtain ⟨entry, _, rfl⟩ := List.mem_map.mp isIn
      exact distinct_of_names ["sni", "weight"] rfl (by decide)
    · simp [defaultPool]
    · exact absent_of_names rootKeys (by decide)
    · exact absent_of_names sectionKeys (by decide)
  rw [read, List.append_assoc]
  rfl

theorem deserialize_pinned :
    RawConfig.deserialize (("cert_pin".toList, .string (pinBase64 base64 material)) ::
        bundledTable base64 keys args) = some (pinnedRaw base64 material keys args) := by
  have reality : asReality (.table (realityTable base64 keys).tail) =
      (rawConfigWithoutKey (writtenConfig base64 keys args)).reality :=
    deserialize_bundledReality base64 keys args
  simp [RawConfig.deserialize, bundledTable, networkTable, orNone, orDefault, required, asString,
    lookup_toList, -String.reduceToList, -List.map_map, deserialize_cidrs, deserialize_pool,
    asUsize_toNat, reality, rawConfigWithoutKey, writtenConfig, pinnedRaw]

variable {base64 material keys args}

theorem pinBase64_unescaped (lawful : base64.Lawful) : Unescaped (pinBase64 base64 material) := by
  intro c isIn
  exact secretText_unescaped lawful _ c (List.mem_append_right _ isIn)

theorem decodePin_pinBase64 (lawful : base64.Lawful) :
    decodePin base64 (String.ofList (pinBase64 base64 material)) = .ok material.pin :=
  bind_ok_iff.mpr ⟨_, decodeB64_encode lawful _ _, exactArray_ok_iff.mpr rfl⟩

theorem pinnedRaw_loads (lawful : base64.Lawful) {server : HydraConfig}
    (loads : (writtenConfig base64 keys args).Loads base64 server) :
    (pinnedRaw base64 material keys args).Loads base64 (pinnedConfig server material) := by
  have kept := loads_withoutKey loads
  exact ⟨kept.format, kept.secret, kept.salt, kept.activeK, kept.epochLen, kept.masterList,
    kept.reality, Option.Rel.some (decodePin_pinBase64 lawful), kept.dest, kept.coherenceCidrs,
    kept.serverAddr⟩

theorem fromTomlStr_pinned {toml : Parser} (lawful : base64.Lawful) (conforms : toml.Conforms)
    (writable : Writable toml args) {server : HydraConfig}
    (loads : (writtenConfig base64 keys args).Loads base64 server) :
    HydraConfig.fromTomlStr toml base64
        (String.ofList (printedPin base64 material ++ render (bundledDocument base64 keys args))) =
      .ok (pinnedConfig server material) := by
  have formed : ∀ line ∈ pinnedDocument base64 material keys args, line.WellFormed := by
    intro line isIn
    rcases List.mem_cons.mp isIn with rfl | others
    · exact plainEntry_formed (by decide) (pinBase64_unescaped lawful)
    · exact bundledDocument_formed base64 keys args lawful writable.dest writable.epochLen line others
  have integers : (pinnedDocument base64 material keys args).flatMap Line.integers =
      [args.activeK.toNat] := rfl
  have represented := List.forall_mem_singleton.mpr writable.integer
  rw [← integers] at represented
  have parsed := conforms.reads formed represented
    (meaning_pinnedDocument base64 material keys args)
  rw [← render_pinnedDocument]
  simp only [HydraConfig.fromTomlStr, String.toList_ofList, parsed, deserialize_pinned]
  exact RawConfig.intoConfig_ok_iff.mpr (pinnedRaw_loads lawful loads)

end Pinned

/-- The pin that a start prints, in front of what the server's bundle installs, loads
as the server's configuration with that pin and without the private key.  The client
then takes a certificate if it hashes like the one this start serves, and every start
that no deletion comes before serves this one again, whatever was cut off between. -/
theorem printed_pin_enrols_client {Draw K : Type} (sha256 : Sha256) (dir : String)
    (base64 : Engine) (lawful : base64.Lawful) (tool : Engine) (toolLawful : tool.Lawful)
    (toml : Parser) (conforms : toml.Conforms) (keys : Generated) (files : Files)
    (args : InitArgs) (text : String) (produced : Produces base64 keys files args text)
    (writable : Writable toml args) (store : Store) (launch : Launch)
    (whole : launch.cut = none) (material : TlsMaterial) (fresh : Bool)
    (returned : (store.attempt sha256 dir launch).result = .ok (material, fresh))
    (someByte : material.certDer ≠ []) :
    ∃ server installed,
      HydraConfig.fromTomlStr toml base64 text = .ok server ∧
      clientFromBundle tool (commandSubstitution (makeBundle tool text)) = some installed ∧
      HydraConfig.fromTomlStr toml base64
        (String.ofList (printedPin base64 material ++ installed)) =
          .ok (pinnedConfig server material) ∧
      (∀ (setup : PipelineSetup Draw K) (tunnel : TunnelClient),
        setup.cfg = pinnedConfig server material → setup.buildTunnel = some tunnel →
          ∀ flight serverName now,
            handshakeCallbacks sha256 tunnel.verifier serverName now flight = .ok () ↔
              sha256 flight.endEntity = sha256 material.certDer) ∧
      ∀ later, Reach (storeStep sha256 dir) KeepsFiles (store.start sha256 dir launch) later →
        ∀ again, (later.attempt sha256 dir again).result = .ok (material, false) := by
  obtain ⟨server, installed, rollout⟩ :=
    exists_rollout lawful toolLawful conforms produced writable
  have pinnedLoads : HydraConfig.fromTomlStr toml base64
      (String.ofList (printedPin base64 material ++ installed)) =
        .ok (pinnedConfig server material) := by
    rw [rollout.document]
    exact fromTomlStr_pinned lawful conforms writable rollout.loads
  have serves := serves_of_returned whole returned
  refine ⟨server, installed, rollout.loaded, rollout.installs, pinnedLoads, ?_, ?_⟩
  · intro setup tunnel isCfg built flight serverName now
    have pinned : tunnel.verifier.pin = some material.pin := by
      rw [(buildTunnel_fields built).2.1, isCfg]
      rfl
    rw [handshakeCallbacks_ok_iff sha256 tunnel.verifier material.pin pinned, serves.pin]
  · intro later reached again
    exact serves.run someByte reached again

def firstMaterial : TlsMaterial := ⟨firstPair.certDer, firstPair.keyDer, lengthHash firstPair.certDer⟩

/-- A pair is made, its pin printed and put into the client's file; a start that would
make another pair is cut off, and the next one serves the first again. -/
theorem first_pair_enrols_client :
    ∃ server installed,
      clientFromBundle standard (commandSubstitution (makeBundle standard
        (renderConfig standard zeroKeys vpsArgs).1)) = some installed ∧
      HydraConfig.fromTomlStr reader standard
        (String.ofList (printedPin standard firstMaterial ++ installed)) = .ok server ∧
      server.certPin = some firstMaterial.pin ∧
      ((((Store.empty.start lengthHash "" ⟨[], fun _ => .ok firstPair, none⟩).start lengthHash ""
        ⟨[], fun _ => .ok secondPair, some 3⟩).attempt lengthHash ""
          ⟨[], fun _ => .ok secondPair, none⟩).result = .ok (firstMaterial, false)) := by
  obtain ⟨server, installed, -, isInstalled, loads, -, again⟩ :=
    @printed_pin_enrols_client Nat Nat lengthHash "" standard standard_lawful standard
      standard_lawful reader reader_conforms zeroKeys emptyDirectory vpsArgs _ vpsArgs_produces
      vpsArgs_writable
      Store.empty ⟨[], fun _ => .ok firstPair, none⟩ rfl firstMaterial true rfl
      (List.cons_ne_nil _ _)
  refine ⟨_, installed, isInstalled, loads, rfl, ?_⟩
  apply again
  exact Relation.ReflTransGen.single ⟨.start ⟨[], fun _ => .ok secondPair, some 3⟩, trivial, rfl⟩

end RealityHydra.System
