import RealityHydra.HydraCli.Init
import RealityHydra.Lib.Json
import RealityHydra.PoolEngine.Window

/-!
# The names of the sidecar and their output

The names accepted in an epoch, as lines, as a JSON array and inside an Xray
inbound.  The JSON codec is a parameter, and its error is passed on as it is.
-/

set_option autoImplicit false

namespace RealityHydra.HydraCli

open RealityHydra.Lib.Base64
open RealityHydra.Lib.ByteCodec
open RealityHydra.Lib.Json
open RealityHydra.PoolEngine

/-- `now` is the wall clock, read only when neither flag is given. -/
def resolveEpoch (cfg : HydraConfig) (atUnixSecs : Option UInt64) (epoch : Option Epoch)
    (now : UInt64) : Epoch :=
  match epoch, atUnixSecs with
  | some e, _ => e
  | none, some secs => epochAt secs cfg.epochLen
  | none, none => epochAt now cfg.epochLen

def serverNames {Draw K : Type} [LinearOrder K] (keying : Keying Draw K) (cfg : HydraConfig)
    (epoch : Epoch) (window : Bool) : ActivePool :=
  if window then
    acceptedPoolWindow keying cfg.masterSecret.toList cfg.serverSalt cfg.masterList epoch
      cfg.activeK
  else
    keyedEpochSubset keying cfg.masterSecret.toList cfg.serverSalt cfg.masterList epoch
      cfg.activeK

inductive OutputFormat where
  | lines
  | json
  | xray
  deriving DecidableEq, Repr, Inhabited

def destPlaceholder : String := "SET-dest-IN-hydra.toml:443"

def renderLines (pool : ActivePool) : String := "\n".intercalate pool.snis

section Rendering

variable (codec : Codec) (base64 : Engine) (cfg : HydraConfig) (pool : ActivePool) (epoch : Epoch)

def renderJson : Except codec.Error String := codec.toStringPretty (.ofStrings pool.snis)

/-- The private key and the short IDs, or placeholders. -/
def xrayKeys : String × List String :=
  match cfg.reality with
  | some r =>
      let pk :=
        match r.privateKey with
        | none => "SET-privateKey-IN-[reality]"
        | some bytes => b64 base64 bytes.toList
      let sids := if r.shortIds = [] then [""] else r.shortIds.map hex
      (pk, sids)
  | none => ("SET-from-`xray x25519`", [""])

def xrayReality : Value :=
  .ofFields
    [("dest", .string (cfg.dest.getD destPlaceholder)),
      ("serverNames", .ofStrings pool.snis),
      ("privateKey", .string (xrayKeys base64 cfg).1),
      ("shortIds", .ofStrings (xrayKeys base64 cfg).2),
      ("maxTimeDiff", .number 60000)]

/-- `active_k` is a `usize` of 64 bits. -/
def xrayInbound : Value :=
  .ofFields
    [("_hydra", .ofFields
        [("note", .string "REALITY-Hydra Phase 6: regenerate each epoch from hydra.toml"),
          ("epoch", .number epoch),
          ("active_k", .number (UInt64.ofNat cfg.activeK)),
          ("serverNames_are", .string "the ±1 epoch accepted window")]),
      ("protocol", .string "vless"),
      ("settings", .ofFields
        [("clients", .array [.ofFields
            [("id", .string "SET-client-uuid"), ("flow", .string "xtls-rprx-vision")]]),
          ("decryption", .string "none")]),
      ("streamSettings", .ofFields
        [("network", .string "tcp"),
          ("security", .string "reality"),
          ("realitySettings", xrayReality base64 cfg pool)])]

def renderXray : Except codec.Error String :=
  codec.toStringPretty (xrayInbound base64 cfg pool epoch)

def render : OutputFormat → Except codec.Error String
  | .lines => .ok (renderLines pool)
  | .json => renderJson codec pool
  | .xray => renderXray codec base64 cfg pool epoch

end Rendering

/-! ## The inbound as a value -/

section Inbound

variable (base64 : Engine) (cfg : HydraConfig) (pool : ActivePool) (epoch : Epoch)

theorem xrayReality_serverNames :
    (xrayReality base64 cfg pool).index "serverNames" = .ofStrings pool.snis := by
  rw [xrayReality, Value.index_ofFields]
  simp [lookup_cons_ite]

theorem xrayReality_shortIds :
    (xrayReality base64 cfg pool).index "shortIds" = .ofStrings (xrayKeys base64 cfg).2 := by
  rw [xrayReality, Value.index_ofFields]
  simp [lookup_cons_ite]

theorem xrayInbound_realitySettings :
    ((xrayInbound base64 cfg pool epoch).index "streamSettings").index "realitySettings" =
      xrayReality base64 cfg pool := by
  rw [xrayInbound, Value.index_ofFields]
  simp [Value.index_ofFields]

theorem xrayReality_canonical {limit : Nat} :
    (xrayReality base64 cfg pool).Canonical (limit + 2) := by
  refine .ofFields ?_
  simp only [List.forall_mem_cons, List.not_mem_nil, false_imp_iff, implies_true, and_true]
  exact ⟨.string _, .ofStrings _, .string _, .ofStrings _, .number _⟩

theorem xrayInbound_canonical {limit : Nat} :
    (xrayInbound base64 cfg pool epoch).Canonical (limit + 4) := by
  refine .ofFields ?_
  simp only [List.forall_mem_cons, List.not_mem_nil, false_imp_iff, implies_true, and_true]
  refine ⟨.ofFields ?_, .string _, .ofFields ?_, .ofFields ?_⟩
  · simp only [List.forall_mem_cons, List.not_mem_nil, false_imp_iff, implies_true, and_true]
    exact ⟨.string _, .number _, .number _, .string _⟩
  · simp only [List.forall_mem_cons, List.not_mem_nil, false_imp_iff, implies_true, and_true]
    refine ⟨.array ?_, .string _⟩
    intro client isIn
    rw [List.mem_singleton.mp isIn]
    refine .ofFields ?_
    simp only [List.forall_mem_cons, List.not_mem_nil, false_imp_iff, implies_true, and_true]
    exact ⟨.string _, .string _⟩
  · simp only [List.forall_mem_cons, List.not_mem_nil, false_imp_iff, implies_true, and_true]
    exact ⟨.string _, .string _, xrayReality_canonical base64 cfg pool⟩

end Inbound

end RealityHydra.HydraCli
