import RealityHydra.HydraClient.Connection
import RealityHydra.HydraServer.Authenticity
import RealityHydra.Setup.Manual
import RealityHydra.Setup.Reshare

/-!
# The client that a bundle installs

What `hydra init` writes has no `cert_pin`, and neither has its bundle: the pin is
made later, by the exit node, and nothing puts it into the file.  The installed
client dials `dest` and takes whoever answers for the exit node.
-/

set_option autoImplicit false

namespace RealityHydra.Setup

open RealityHydra.HydraCli
open RealityHydra.HydraClient
open RealityHydra.HydraServer
open RealityHydra.Lib.Base64
open RealityHydra.Lib.ByteCodec
open RealityHydra.Lib.LineEditing
open RealityHydra.Lib.Toml
open RealityHydra.Lib.TomlGrammar (Grammar)
open RealityHydra.Lib.Transition
open RealityHydra.PoolEngine
open RealityHydra.TunnelProto

/-! ## What the filter makes of the file -/

section File

variable (base64 : Engine) (keys : Generated) (args : InitArgs)

/-- The file without the private key, up to the last line with something on it. -/
def bundledDocument : List Line :=
  secretsLines base64 keys ++ (beforeKeys args ++ ((realityLines base64 keys).take 2 ++
    ((realityLines base64 keys).drop 3 ++ poolLines.dropLast)))

variable {base64 keys args}

theorem lines_keyless {stretch : List Line} (formed : ∀ line ∈ stretch, line.WellFormed)
    (unmentioned : Unmentioned privateKeyName stretch) :
    ∀ written ∈ stretch.flatMap Line.lines, startsPrivateKey written = false := by
  intro written isIn
  obtain ⟨line, isLine, isWritten⟩ := List.mem_flatMap.mp isIn
  exact begins_of_not_mentions privateKeyName_bare (formed line isLine)
    (unmentioned.silent line isLine) written isWritten

/-- The filter keeps every line of a stretch with no entry under such a key. -/
theorem filter_stretch {stretch : List Line} (formed : ∀ line ∈ stretch, line.WellFormed)
    (unmentioned : Unmentioned privateKeyName stretch) :
    (stretch.flatMap Line.lines).filter passes = stretch.flatMap Line.lines := by
  rw [List.filter_eq_self]
  intro written isIn
  rw [passes, lines_keyless formed unmentioned written isIn]
  rfl

theorem filter_kept {stretch : List Line} (formed : ∀ line ∈ stretch, line.WellFormed)
    (unmentioned : Unmentioned privateKeyName stretch) (more : List Line) :
    ((stretch ++ more).flatMap Line.lines).filter passes =
      stretch.flatMap Line.lines ++ (more.flatMap Line.lines).filter passes := by
  rw [List.flatMap_append, List.filter_append, filter_stretch formed unmentioned]

theorem filter_private {pad : Nat} {text : List Char} {note : Option Note} (more : List Line) :
    ((Line.entry privateKeyName pad (.string text) note :: more).flatMap Line.lines).filter passes =
      (more.flatMap Line.lines).filter passes := by
  have begun : startsPrivateKey (entryFront privateKeyName pad ++
      (quoted text ++ noteChars note)) = true := by
    have met := begins_entryFront privateKeyName_bare privateKeyName_bare pad
      (quoted text ++ noteChars note)
    rw [List.isPrefixOf_iff_prefix.mpr (List.prefix_refl privateKeyName)] at met
    exact met
  have dropped : passes (entryFront privateKeyName pad ++
      (quoted text ++ noteChars note)) = false := by
    rw [passes, begun]
    rfl
  rw [List.flatMap_cons, Line.lines, Literal.lines, List.singleton_append,
    List.filter_cons_of_neg (by rw [dropped]; exact Bool.false_ne_true)]

/-- The last line of the pool is a weight, and a blank one comes behind it. -/
theorem poolLines_ends : ∃ front weight, poolLines =
    front ++ [plainEntry "weight" 1 (.decimal weight)] ++ [.blank] := by
  obtain ⟨others, last, isPool⟩ : ∃ others last, defaultPool = others ++ [last] :=
    ⟨_, _, (List.dropLast_append_getLast (by simp [defaultPool])).symm⟩
  have entry : ∀ front : List Line, ∀ first second third fourth : Line,
      front ++ [first, second, third, fourth] = (front ++ [first, second]) ++ [third] ++ [fourth] := by
    simp
  rw [poolLines, isPool, List.flatMap_append, List.flatMap_singleton, entry]
  exact ⟨_, _, rfl⟩

theorem bundledDocument_ends (base64 : Engine) (keys : Generated) (args : InitArgs) :
    ∃ lines last,
    (bundledDocument base64 keys args).flatMap Line.lines = lines ++ [last] ∧ last ≠ [] := by
  obtain ⟨front, weight, isPool⟩ := poolLines_ends
  have written : (plainEntry "weight" 1 (.decimal weight)).lines =
      [entryFront "weight".toList 1 ++ (decimalChars weight ++ noteChars none)] := rfl
  have someChar : entryFront "weight".toList 1 ++ (decimalChars weight ++ noteChars none) ≠ [] := by
    simp [entryFront]
  rw [bundledDocument, isPool, List.dropLast_concat]
  simp only [← List.append_assoc, List.flatMap_append, List.flatMap_singleton, written]
  exact ⟨_, _, rfl, someChar⟩

theorem filter_document (lawful : base64.Lawful) (dest : Unescaped args.dest.toList)
    (epochLen : Unescaped args.epochLen.toList) (blanks : Nat) :
    ((document base64 keys args ++ List.replicate blanks Line.blank).flatMap Line.lines).filter
        passes =
      (bundledDocument base64 keys args).flatMap Line.lines ++ List.replicate (blanks + 1) [] := by
  obtain ⟨secrets, settings, reality, pool⟩ :=
    @stretches_formed base64 keys args lawful dest epochLen
  have comments : Unmentioned privateKeyName (secretsLines base64 keys) := rfl
  have network : Unmentioned privateKeyName (beforeKeys args) := rfl
  have heading : Unmentioned privateKeyName ((realityLines base64 keys).take 2) := rfl
  have others : Unmentioned privateKeyName ((realityLines base64 keys).drop 3) := rfl
  have entries : Unmentioned privateKeyName poolLines := rfl
  have split : document base64 keys args = secretsLines base64 keys ++ (beforeKeys args ++
      ((realityLines base64 keys).take 2 ++ .entry privateKeyName 1 (.string _) _ ::
        ((realityLines base64 keys).drop 3 ++ poolLines))) := document_split base64 keys args
  have documentLeft : ((document base64 keys args).flatMap Line.lines).filter passes =
      (bundledDocument base64 keys args).flatMap Line.lines ++ [[]] := by
    obtain ⟨front, weight, isPool⟩ := poolLines_ends
    rw [split, filter_kept secrets comments, filter_kept settings network,
      filter_kept (fun line isIn => reality line (List.mem_of_mem_take isIn)) heading,
      filter_private, filter_kept (fun line isIn => reality line (List.mem_of_mem_drop isIn)) others,
      filter_stretch pool entries, bundledDocument, isPool, List.dropLast_concat]
    simp [Line.lines]
  have blankLines : ((List.replicate blanks Line.blank).flatMap Line.lines).filter passes =
      List.replicate blanks [] := by
    have lines : (List.replicate blanks Line.blank).flatMap Line.lines =
        List.replicate blanks [] := by
      induction blanks with
      | zero => rfl
      | succ blanks ih =>
          rw [List.replicate_succ, List.flatMap_cons, ih]
          rfl
    rw [lines, List.filter_replicate]
    rfl
  rw [List.flatMap_append, List.filter_append, documentLeft, blankLines, List.append_assoc]
  rfl

theorem not_mem_render {c : Char} (unprintable : isPrintable c = false)
    (notBare : isBare c = false) (other : c ≠ '\n') {lines : List Line}
    (formed : ∀ line ∈ lines, line.WellFormed) : c ∉ render lines := by
  intro isIn
  obtain ⟨written, isWritten, inLine⟩ := List.mem_flatMap.mp isIn
  obtain ⟨line, isLine, isOne⟩ := List.mem_flatMap.mp isWritten
  rcases List.mem_append.mp inLine with inside | newline
  · exact not_mem_lines unprintable notBare (formed line isLine) written isOne inside
  · exact other (List.mem_singleton.mp newline)

theorem render_noNul {lines : List Line} (formed : ∀ line ∈ lines, line.WellFormed) :
    Char.ofNat 0 ∉ render lines :=
  not_mem_render rfl rfl (by decide) formed

theorem clientToml_init (lawful : base64.Lawful) {files : Files} {text : String}
    (produced : Produces base64 keys files args text) (dest : Unescaped args.dest.toList)
    (epochLen : Unescaped args.epochLen.toList) :
    Char.ofNat 0 ∉ text.toList ∧
      clientToml text.toList ++ ['\n'] = render (bundledDocument base64 keys args) := by
  obtain ⟨blanks, isText⟩ := produced.lines
  have formed : ∀ line ∈ document base64 keys args ++ List.replicate blanks Line.blank,
      line.WellFormed := document_formed lawful dest epochLen blanks
  have noNul := render_noNul formed
  obtain ⟨lines, last, isBundled, someChar⟩ := bundledDocument_ends base64 keys args
  have pieces := splitOn_render formed []
  rw [List.append_nil] at pieces
  have left : ((render (document base64 keys args ++ List.replicate blanks Line.blank)).splitOn
      '\n').filter passes = lines ++ [last] ++ List.replicate (blanks + 2) [] := by
    rw [pieces, List.filter_append, filter_document lawful dest epochLen, isBundled,
      List.replicate_succ' (n := blanks + 1), List.append_assoc]
    rfl
  rw [isText]
  refine ⟨noNul, ?_⟩
  rw [clientToml_newline noNul, keptLines, left, trimmedLines_blanks someChar, ← isBundled]
  rfl

end File

/-! ## What is installed -/

section Meaning

variable (base64 : Engine) (keys : Generated) (args : InitArgs)

def bundledTable : Table :=
  networkTable base64 keys args ++
    [("reality".toList, .table (realityTable base64 keys).tail),
      ("pool".toList, .array ((defaultPool.map poolTable).map .table))]

theorem meaning_bundledDocument :
    meaning (bundledDocument base64 keys args) = some (bundledTable base64 keys args) := by
  have networkKeys := networkTable_keys base64 keys args
  have sectionKeys : (networkTable base64 keys args ++
      [("reality".toList, Value.table (realityTable base64 keys).tail)]).map Prod.fst =
      ["master_secret", "server_salt", "pool_format", "epoch_len", "active_k", "dest",
        "coherence_cidrs", "reality"].map String.toList := rfl
  have read : meaning (bundledDocument base64 keys args) = some (networkTable base64 keys args ++
      [("reality".toList, .table (realityTable base64 keys).tail)] ++
        [("pool".toList, .array ((defaultPool.map poolTable).map .table))]) := by
    apply meaning_of_sections
    · rfl
    · exact distinct_of_names _ networkKeys (by decide)
    · exact distinct_of_names ["public_key", "short_ids", "fingerprint"] rfl (by decide)
    · intro entries isIn
      obtain ⟨entry, _, rfl⟩ := List.mem_map.mp isIn
      exact distinct_of_names ["sni", "weight"] rfl (by decide)
    · simp [defaultPool]
    · exact absent_of_names networkKeys (by decide)
    · exact absent_of_names sectionKeys (by decide)
  rw [read, List.append_assoc]
  rfl

theorem deserialize_bundledReality :
    asReality (.table (realityTable base64 keys).tail) =
      (rawConfigWithoutKey (writtenConfig base64 keys args)).reality := by
  simp [asReality_table, RawReality.deserialize, realityTable, orNone, orDefault, required, asString,
    asList, lookup_toList, rawConfigWithoutKey, writtenConfig, writtenReality, withoutKey, hex,
    -String.reduceToList]

theorem deserialize_bundledTable :
    RawConfig.deserialize (bundledTable base64 keys args) =
      some (rawConfigWithoutKey (writtenConfig base64 keys args)) := by
  have reality := deserialize_bundledReality base64 keys args
  simp [RawConfig.deserialize, bundledTable, networkTable, orNone, orDefault, required, asString,
    lookup_toList, -String.reduceToList, -List.map_map, deserialize_cidrs, deserialize_pool,
    asUsize_toNat, reality, rawConfigWithoutKey, writtenConfig]

theorem bundledDocument_formed (lawful : base64.Lawful) (dest : Unescaped args.dest.toList)
    (epochLen : Unescaped args.epochLen.toList) :
    ∀ line ∈ bundledDocument base64 keys args, line.WellFormed := by
  have formed : ∀ line ∈ document base64 keys args ++ List.replicate 0 Line.blank,
      line.WellFormed := document_formed lawful dest epochLen 0
  rw [List.replicate_zero, List.append_nil, document_split] at formed
  intro line isIn
  apply formed
  simp only [bundledDocument, List.mem_append] at isIn ⊢
  rcases isIn with secret | setting | heading | reality | pool
  · exact Or.inl secret
  · exact Or.inr (Or.inl setting)
  · exact Or.inr (Or.inr (Or.inl (List.mem_of_mem_take heading)))
  · exact Or.inr (Or.inr (Or.inl (List.mem_of_mem_drop reality)))
  · exact Or.inr (Or.inr (Or.inr ((List.dropLast_sublist _).subset pool)))

theorem fromTomlStr_bundled {toml : Parser} (conforms : toml.Conforms)
    (formed : ∀ line ∈ bundledDocument base64 keys args, line.WellFormed)
    (fits : toml.Represents args.activeK.toNat) :
    HydraConfig.fromTomlStr toml base64
        (String.ofList (render (bundledDocument base64 keys args))) =
      (rawConfigWithoutKey (writtenConfig base64 keys args)).intoConfig base64 := by
  have integers : (bundledDocument base64 keys args).flatMap Line.integers =
      [args.activeK.toNat] := rfl
  have represented := List.forall_mem_singleton.mpr fits
  rw [← integers] at represented
  have parsed := conforms.reads formed represented (meaning_bundledDocument base64 keys args)
  simp only [HydraConfig.fromTomlStr, String.toList_ofList, parsed, deserialize_bundledTable]

end Meaning

/-! ## Without a pin -/

section Unpinned

variable {verifier : PinnedVerifier} {peer : Peer}

/-- The peer is reached, presents something and finishes the handshake. -/
structure Answers (peer : Peer) : Prop where
  tcp : peer.tcp = .ok ()
  presents : ∃ flight, peer.flight = .ok flight
  finishes : peer.finish = .ok ()

theorem handshakeCallbacks_unpinned (unpinned : verifier.pin = none) (sha256 : Primitives.Sha256)
    (serverName : String) (now : UInt64) (flight : ServerFlight) :
    handshakeCallbacks sha256 verifier serverName now flight = .ok () := by
  rw [handshakeCallbacks, PinnedVerifier.verifyServerCert, unpinned]
  cases flight.version <;> rfl

theorem tlsConnect_unpinned (unpinned : verifier.pin = none) (answers : Answers peer)
    (sha256 : Primitives.Sha256) (serverName : String) (now : UInt64) :
    tlsConnect sha256 verifier peer serverName now = .ok () := by
  obtain ⟨flight, presented⟩ := answers.presents
  have accepted := handshakeCallbacks_unpinned unpinned sha256 serverName now flight
  simp only [tlsConnect, presented, accepted, answers.finishes, Except.mapError, bind, Except.bind]

/-- Whoever answers is sent the header. -/
theorem open_unpinned {tunnel : TunnelClient} (unpinned : tunnel.verifier.pin = none)
    (answers : Answers peer) (env : ClientEnv) {sni serverName : String}
    (named : chooseServerName env sni = .ok serverName) (target : Target) (stamp : UInt64) :
    (tunnel.open env peer sni target stamp).sent =
      encodeRequest env.hmac tunnel.masterSecret stamp target := by
  have connected := tlsConnect_unpinned unpinned answers env.sha256 serverName stamp
  simp only [TunnelClient.open, answers.tcp, named, connected]
  split
  · rfl
  · split <;> rfl

end Unpinned

/-- Whatever the peer shows, it is given the header, and it can have the exit node
dial for it as long as the header is fresh. -/
structure TrustsAnyone {Draw K : Type} (setup : PipelineSetup Draw K) (tunnel : TunnelClient) :
    Prop where
  sends : ∀ (peer : Peer) (sni serverName : String) (target : Target) (stamp : UInt64),
    Answers peer → chooseServerName setup.env sni = .ok serverName →
      (tunnel.open setup.env peer sni target stamp).sent =
        encodeRequest setup.env.hmac setup.cfg.masterSecret.toList stamp target
  spends : ∀ (env : ServerEnv) (target : Target) (stamp now : UInt64),
    env.hmac = setup.env.hmac → env.key = setup.cfg.masterSecret.toList → target.DomainFits →
      |(now.toNat : Int) - stamp.toNat| ≤ env.maxSkew.toNat →
        ∃ served, runAll (inboundStep env) .unaccepted (replayActions
            (encodeRequest setup.env.hmac setup.cfg.masterSecret.toList stamp target) now) =
              some (.served served) ∧
          served.serving.dialled = [target.display]

theorem trustsAnyone_of_unpinned {Draw K : Type} {setup : PipelineSetup Draw K}
    {tunnel : TunnelClient} (built : setup.buildTunnel = some tunnel)
    (unpinned : setup.cfg.certPin = none) : TrustsAnyone setup tunnel := by
  obtain ⟨-, pin, secret⟩ := buildTunnel_fields built
  refine ⟨?_, ?_⟩
  · intro peer sni serverName target stamp answers named
    rw [open_unpinned (pin.trans unpinned) answers setup.env named, secret]
  · intro env target stamp now sameHmac sameKey fits fresh
    obtain ⟨served, ran, replayed⟩ := inbound_replay env stamp now fits
    rw [sameHmac, sameKey] at ran
    refine ⟨served, ran, ?_⟩
    cases replayed with
    | dials _ dialled _ => exact dialled
    | refuses stale _ _ => exact absurd fresh stale

/-- What the bundle of a file that `init` has written installs. -/
structure Rollout (base64 tool : Engine) (toml : Parser) (keys : Generated) (args : InitArgs)
    (text : String) (server : HydraConfig) (installed : List Char) : Prop where
  loaded : HydraConfig.fromTomlStr toml base64 text = .ok server
  loads : (writtenConfig base64 keys args).Loads base64 server
  back : LoadsBack keys args server
  installs : clientFromBundle tool (commandSubstitution (makeBundle tool text)) = some installed
  document : installed = render (bundledDocument base64 keys args)
  client : HydraConfig.fromTomlStr toml base64 (String.ofList installed) =
    .ok (withoutPrivateKey server)

theorem exists_rollout {base64 tool : Engine} {toml : Parser} {keys : Generated} {files : Files}
    {args : InitArgs} {text : String} (lawful : base64.Lawful) (toolLawful : tool.Lawful)
    (conforms : toml.Conforms) (produced : Produces base64 keys files args text)
    (writable : Writable toml args) :
    ∃ server installed, Rollout base64 tool toml keys args text server installed := by
  obtain ⟨server, loaded, loads, back⟩ := produced_loads lawful produced conforms writable
  have isInstalled := (clientToml_init lawful produced writable.dest writable.epochLen).2
  have formed := bundledDocument_formed base64 keys args lawful writable.dest writable.epochLen
  have installed := passOn_eq toolLawful text.toList
  rw [passOn, String.ofList_toList, isInstalled] at installed
  refine ⟨server, _, loaded, loads, back, installed, rfl, ?_⟩
  rw [fromTomlStr_bundled _ _ _ conforms formed writable.integer]
  exact RawConfig.intoConfig_ok_iff.mpr (loads_withoutKey loads)

/-- The bundle of a server that `init` has set up installs the server's
configuration without the private key.  It has no pin: the client dials `dest`, and
whoever answers there is given headers that the exit node serves. -/
theorem bundled_client_trusts_anyone {Draw K : Type} (base64 : Engine) (lawful : base64.Lawful)
    (tool : Engine) (toolLawful : tool.Lawful) (toml : Parser) (conforms : toml.Conforms)
    (keys : Generated) (files : Files) (args : InitArgs) (text : String)
    (produced : Produces base64 keys files args text) (writable : Writable toml args) :
    ∃ server installed,
      HydraConfig.fromTomlStr toml base64 text = .ok server ∧
      clientFromBundle tool (commandSubstitution (makeBundle tool text)) = some installed ∧
      HydraConfig.fromTomlStr toml base64 (String.ofList installed) =
        .ok (withoutPrivateKey server) ∧
      ∀ setup : PipelineSetup Draw K, setup.cfg = withoutPrivateKey server →
        setup.versions = .ok () → ∃ tunnel, setup.buildTunnel = some tunnel ∧
          tunnel.serverAddr = args.dest ∧ TrustsAnyone setup tunnel := by
  obtain ⟨server, installed, rollout⟩ :=
    exists_rollout lawful toolLawful conforms produced writable
  have unpinned : server.certPin = none := by
    have related := rollout.loads.certPin
    cases pin : server.certPin with
    | none => rfl
    | some _ =>
        rw [pin] at related
        exact (Option.not_rel_none_some related).elim
  refine ⟨server, installed, rollout.loaded, rollout.installs, rollout.client, ?_⟩
  intro setup isCfg versions
  have serverAddr : server.serverAddr = none := rollout.loads.serverAddr
  have addr : setup.cfg.serverAddr.or setup.cfg.dest = some args.dest := by
    rw [isCfg, withoutPrivateKey, serverAddr, Option.none_or, rollout.back.dest]
  obtain ⟨tunnel, built⟩ := buildTunnel_of_addr addr versions
  have sameAddr := (buildTunnel_fields built).1
  rw [addr] at sameAddr
  refine ⟨tunnel, built, (Option.some.inj sameAddr).symm, trustsAnyone_of_unpinned built ?_⟩
  rw [isCfg]
  exact unpinned

/-- `[7]` is presented, and nothing is signed. -/
theorem vps_bundle_trusts_impostor :
    ∃ server installed,
      clientFromBundle standard (commandSubstitution (makeBundle standard
        (renderConfig standard zeroKeys vpsArgs).1)) = some installed ∧
      HydraConfig.fromTomlStr reader standard (String.ofList installed) = .ok server ∧
      ∃ tunnel, ({ twoNamesSetup with cfg := server } : PipelineSetup Nat Nat).buildTunnel =
          some tunnel ∧
        tunnel.serverAddr = "203.0.113.7:443" ∧
        (tunnel.open firstByteEnv (sevenPeer []) "www.example.com" webTarget 7).sent =
          encodeRequest firstByteEnv.hmac server.masterSecret.toList 7 webTarget := by
  obtain ⟨server, installed, -, isInstalled, loads, trusts⟩ :=
    @bundled_client_trusts_anyone Nat Nat standard standard_lawful standard standard_lawful reader
      reader_conforms zeroKeys emptyDirectory vpsArgs _ vpsArgs_produces vpsArgs_writable
  obtain ⟨tunnel, built, addr, trusting⟩ :=
    trusts { twoNamesSetup with cfg := withoutPrivateKey server } rfl rfl
  exact ⟨withoutPrivateKey server, installed, isInstalled, loads, tunnel, built, addr,
    trusting.sends (sevenPeer []) "www.example.com" "www.example.com" webTarget 7
      ⟨rfl, ⟨_, rfl⟩, rfl⟩ rfl⟩

end RealityHydra.Setup
