import RealityHydra.HydraCli.RenderersAgree
import RealityHydra.Setup.Installed
import RealityHydra.System.PresentedNames

/-!
# From `hydra init` to a name on the wire

The server's file is written, bundled, pasted and loaded; the client runs, and the
server prints the names its front accepts.  Nothing else passes between the two.
-/

set_option autoImplicit false

namespace RealityHydra.System

open RealityHydra.HydraCli
open RealityHydra.HydraClient
open RealityHydra.Lib.Base64
open RealityHydra.Lib.ByteCodec
open RealityHydra.Lib.Json (Codec textCodec textCodec_lawful)
open RealityHydra.Lib.Text
open RealityHydra.Lib.Toml (Parser reader reader_conforms)
open RealityHydra.Lib.Transition
open RealityHydra.PoolEngine
open RealityHydra.Setup

structure ServerNamesArgs where
  format : OutputFormat
  atUnixSecs : Option UInt64
  epoch : Option Epoch
  single : Bool

section Command

variable (codec : Codec) (base64 : Engine) {Draw K : Type} [LinearOrder K] (keying : Keying Draw K)
  (cfg : HydraConfig)

def serverNamesOutput (args : ServerNamesArgs) (now : UInt64) : Except codec.Error String :=
  let epoch := resolveEpoch cfg args.atUnixSecs args.epoch now
  let pool := serverNames keying cfg epoch (!args.single)
  render codec base64 cfg pool epoch args.format

def sidecar (format : OutputFormat) : ServerNamesArgs := ⟨format, none, none, false⟩

/-- Each format of the command's output reads back to these names. -/
structure Prints (now : UInt64) (snis : List String) : Prop where
  lines : ∃ text, serverNamesOutput codec base64 keying cfg (sidecar .lines) now = .ok text ∧
    (lines text.toList).map String.ofList = snis
  json : ∃ text value, serverNamesOutput codec base64 keying cfg (sidecar .json) now = .ok text ∧
    codec.fromStr text = .ok value ∧ value.asStrings = some snis
  xray : ∃ text value, serverNamesOutput codec base64 keying cfg (sidecar .xray) now = .ok text ∧
    codec.fromStr text = .ok value ∧
    (((value.index "streamSettings").index "realitySettings").index "serverNames").asStrings =
      some snis

end Command

theorem defaultEntries_plain : ∀ entry ∈ defaultEntries,
    '\n' ∉ entry.sni.toList ∧ entry.sni.toList.getLast? ≠ some '\r' := by
  have checked : (defaultPool.all fun entry =>
      !entry.1.toList.contains '\n' && entry.1.toList.getLast? != some '\r') = true := by
    decide +kernel
  intro entry isIn
  obtain ⟨written, isWritten, rfl⟩ := List.mem_map.mp isIn
  simpa using List.all_eq_true.mp checked written isWritten

/-- A front and a client that share nothing but the server's file and its bundle agree
as long as their clocks are in one epoch: the file that `init` has written and what its
bundle installs both load, the command prints a list of names in each of its formats,
and in every run of the client every name that a connection shows is on that list. -/
theorem front_accepts_bundled_client {Draw K : Type} [LinearOrder K] (base64 : Engine)
    (lawful : base64.Lawful) (tool : Engine) (toolLawful : tool.Lawful) (toml : Parser)
    (conforms : toml.Conforms) (codec : Codec) (codecLawful : codec.Lawful) (keys : Generated)
    (files : Files) (args : InitArgs) (text : String)
    (produced : Produces base64 keys files args text) (writable : Writable toml args) :
    ∃ server installed client,
      HydraConfig.fromTomlStr toml base64 text = .ok server ∧
      clientFromBundle tool (commandSubstitution (makeBundle tool text)) = some installed ∧
      HydraConfig.fromTomlStr toml base64 (String.ofList installed) = .ok client ∧
      ∀ (setup : PipelineSetup Draw K) (front : UInt64), setup.cfg = client →
        ∃ snis, Prints codec base64 setup.keying server front snis ∧
          ∀ (Task : Type) [DecidableEq Task] (now : UInt64) (streams : Task → Bytes)
            (hub : Hub Task), epochAt now client.epochLen = epochAt front client.epochLen →
            Reach (hubStep setup) (ClockKeeps setup (· = epochAt front client.epochLen))
              (Hub.start setup now streams) hub →
            ∀ task, ∀ sni ∈ presented (hub.connections task), sni ∈ snis := by
  obtain ⟨server, installed, rollout⟩ :=
    exists_rollout lawful toolLawful conforms produced writable
  refine ⟨server, installed, withoutPrivateKey server, rollout.loaded, rollout.installs,
    rollout.client, ?_⟩
  intro setup front isCfg
  let epoch := epochAt front server.epochLen
  have plain : ∀ entry ∈ server.masterList.entries,
      '\n' ∉ entry.sni.toList ∧ entry.sni.toList.getLast? ≠ some '\r' := by
    intro entry isIn
    exact defaultEntries_plain entry (rollout.back.pool.subset isIn)
  have agree : RenderersAgree codec base64 server (serverNames setup.keying server epoch true)
      epoch := renderers_agree_of_plain_names setup.keying server epoch true codecLawful base64 plain
  refine ⟨(serverNames setup.keying server epoch true).snis,
    ⟨agree.lines, agree.json, agree.xray⟩, ?_⟩
  intro Task _ now streams hub starts reached task sni isIn
  have sameStart : epochAt now setup.cfg.epochLen = epoch := by
    rw [isCfg]
    exact starts
  obtain ⟨shown, isShown, named⟩ := reachable_presented sameStart reached task sni isIn
  have isFront : shown = epoch := isShown
  rw [isFront, isCfg] at named
  obtain ⟨entry, drawn, isNamed⟩ := (ActivePool.contains_iff ..).mp named
  exact List.mem_map.mpr ⟨entry, drawn, isNamed⟩

theorem vps_front_accepts_bundled_client :
    ∃ server installed client,
      HydraConfig.fromTomlStr reader standard (renderConfig standard zeroKeys vpsArgs).1 =
        .ok server ∧
      clientFromBundle standard (commandSubstitution (makeBundle standard
        (renderConfig standard zeroKeys vpsArgs).1)) = some installed ∧
      HydraConfig.fromTomlStr reader standard (String.ofList installed) = .ok client ∧
      ∃ snis, Prints textCodec standard keyedApartAtThree server 0 snis ∧
        ∀ hub : Hub Nat,
          let setup : PipelineSetup Nat Nat := { twoNamesSetup with cfg := client }
          Reach (hubStep setup) (ClockKeeps setup (· = epochAt 0 client.epochLen))
            (Hub.start setup 0 fun _ => loopbackRequest) hub →
          ∀ task, ∀ sni ∈ presented (hub.connections task), sni ∈ snis := by
  obtain ⟨server, installed, client, loaded, installs, loads, accepts⟩ :=
    @front_accepts_bundled_client Nat Nat _ standard standard_lawful standard standard_lawful reader
      reader_conforms textCodec textCodec_lawful zeroKeys emptyDirectory vpsArgs _ vpsArgs_produces
      vpsArgs_writable
  obtain ⟨snis, prints, all⟩ := accepts { twoNamesSetup with cfg := client } 0 rfl
  exact ⟨server, installed, client, loaded, installs, loads, snis, prints,
    fun hub reached => all Nat 0 _ hub rfl reached⟩

end RealityHydra.System
