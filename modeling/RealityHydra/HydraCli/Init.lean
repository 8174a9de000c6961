import Mathlib.Data.Rat.Floor
import RealityHydra.Lib.TomlReader
import RealityHydra.PoolEngine.Document

/-!
# `hydra init`

The configuration the command writes, by interpolation into a fixed text, and
what the loader makes of that text.
-/

set_option autoImplicit false

namespace RealityHydra.HydraCli

open RealityHydra.Lib.Base64
open RealityHydra.Lib.ByteCodec
open RealityHydra.Lib.Toml
open RealityHydra.PoolEngine

structure InitArgs where
  output : String
  force : Bool
  dest : String
  /-- A `usize`. -/
  activeK : UInt64
  epochLen : String
  stdout : Bool
  deriving DecidableEq, Repr

/-- What `generate_keypair` returns. -/
structure Keypair where
  privateKey : Vector UInt8 realityKeyLen
  publicKey : Vector UInt8 realityKeyLen
  deriving DecidableEq, Repr

/-- The results of the four calls, in their order. -/
structure Generated where
  masterSecret : Keypair
  saltSrc : Keypair
  sidSrc : Keypair
  reality : Keypair
  deriving DecidableEq, Repr

def Generated.serverSalt (keys : Generated) : Bytes := keys.saltSrc.privateKey.toList.take 16

def Generated.shortId (keys : Generated) : Bytes := keys.sidSrc.privateKey.toList.take 8

def defaultPool : List (String × ℚ) :=
  [("www.cloudflare.com", 8), ("www.digitalocean.com", 6), ("www.medium.com", 6),
    ("www.discord.com", 7), ("play.google.com", 13 / 2), ("www.udemy.com", 5),
    ("www.canva.com", 6), ("www.upwork.com", 5), ("www.fiverr.com", 9 / 2),
    ("www.gitlab.com", 5), ("www.zendesk.com", 4), ("www.hubspot.com", 4)]

def defaultCidrs : List String :=
  ["104.16.0.0/13", "172.64.0.0/13", "173.245.48.0/20", "141.101.64.0/18",
    "108.162.192.0/18", "190.93.240.0/20", "188.114.96.0/20", "162.158.0.0/15",
    "131.0.72.0/22"]

/-- `{b:02x}`. -/
def hexByte (byte : UInt8) : List Char :=
  [Nat.digitChar (byte.toNat / 16), Nat.digitChar (byte.toNat % 16)]

def hex (bytes : Bytes) : String := String.ofList (bytes.flatMap hexByte)

/-- Tenths of the magnitude, halves to even. -/
def roundedTenths (weight : ℚ) : Nat :=
  let scaled := |weight| * 10
  let down := ⌊scaled⌋
  let rest := scaled - down
  if rest < 1 / 2 ∨ (rest = 1 / 2 ∧ down % 2 = 0) then down.toNat else down.toNat + 1

/-- `{weight:.1}`. -/
def oneDecimal (weight : ℚ) : String :=
  (if weight < 0 then "-" else "") ++ String.ofList (decimalChars (roundedTenths weight))

def poolText : String :=
  String.join (defaultPool.map fun (sni, weight) =>
    "[[pool]]\nsni    = \"" ++ sni ++ "\"\nweight = " ++ oneDecimal weight ++ "\n\n")

def cidrsText : String :=
  String.join (defaultCidrs.map fun cidr => "    \"" ++ cidr ++ "\",\n")

/-! ## The text

The format string of `render_config`, in the parts between the arguments. -/

def secretsText (ms ss : String) : String :=
  "# hydra.toml — generated by `hydra init`.\n" ++
  "# Secrets below are UNIQUE to this deployment. Keep this file private and\n" ++
  "# distribute it to clients out of band (REALITY.md §12).\n" ++
  "master_secret = \"base64:" ++ ms ++ "\"   # 32 B — rotate on suspected leak\n" ++
  "server_salt   = \"base64:" ++ ss ++ "\"   # 16 B — per-deployment\n" ++
  "pool_format   = \"hydra-pool-v1\"\n"

def edgeText : String :=
  "\n" ++
  "# The single CDN edge probes fall back to. Every pool SNI MUST be a real\n" ++
  "# domain served by this CDN (REALITY.md §5.3).\n"

def tunnelText : String :=
  "coherence_cidrs = [\n" ++ cidrsText ++ "]\n" ++
  "\n" ++
  "# ── Self-tunnel (no Xray): the Rust `hydra server` exit node ──\n" ++
  "# Uncomment and point at YOUR VPS to use the built-in tunnel instead of a\n" ++
  "# stock Xray REALITY server. `server_addr` is where the client dials; if\n" ++
  "# left unset the client falls back to `dest`. `cert_pin` is printed by\n" ++
  "# `hydra server` on first run (SHA-256 of its self-signed cert).\n" ++
  "# server_addr = \"YOUR.VPS.IP:443\"\n" ++
  "# cert_pin    = \"base64:...\"   # from `hydra server` output\n" ++
  "\n"

def realityText (pk pbk sid : String) : String :=
  "# REALITY handshake keys (this section is what `keygen` produces).\n" ++
  "[reality]\n" ++
  "private_key = \"base64:" ++ pk ++ "\"   # SERVER only — omit on client copies\n" ++
  "public_key  = \"base64:" ++ pbk ++ "\"  # client pbk\n" ++
  "short_ids   = [\"" ++ sid ++ "\"]\n" ++
  "fingerprint = \"chrome\"\n" ++
  "\n" ++
  "# ── SNI pool: replace with domains genuinely fronted by YOUR CDN ──\n"

def b64 (base64 : Engine) (bytes : Bytes) : String := String.ofList (base64.encode bytes)

/-- The text, the public key and the short ID. -/
def renderConfig (base64 : Engine) (keys : Generated) (args : InitArgs) :
    String × String × String :=
  let ms := b64 base64 keys.masterSecret.privateKey.toList
  let ss := b64 base64 keys.serverSalt
  let pk := b64 base64 keys.reality.privateKey.toList
  let pbk := b64 base64 keys.reality.publicKey.toList
  let sid := hex keys.shortId
  let toml :=
    secretsText ms ss ++
    "epoch_len     = \"" ++ args.epochLen ++ "\"\n" ++
    "active_k      = " ++ args.activeK.toNat.repr ++ "\n" ++
    edgeText ++
    "dest            = \"" ++ args.dest ++ "\"\n" ++
    tunnelText ++
    realityText pk pbk sid ++
    poolText
  (toml, pbk, sid)

/-! ## Running the command -/

inductive CliError where
  | alreadyExists (path : String)
  | io (path source : String)
  deriving DecidableEq, Repr

/-- What the command sees of the files: whether a path exists, and what writing
there says. -/
structure Files where
  pathExists : String → Bool
  write : String → String → Except String Unit

/-- What a run returns and the file it has written. -/
structure Ran where
  result : Except CliError String
  written : Option (String × String)
  deriving DecidableEq

def summary (output pbk sid : String) : String :=
  "Wrote " ++ output ++ "\n\n" ++
  "Share these client-side values (they are safe to hand to clients):\n" ++
  "  pbk (public_key): " ++ pbk ++ "\n" ++
  "  sid (short_id):   " ++ sid ++ "\n\n" ++
  "Next — pick ONE server path:\n" ++
  "  A) Self-tunnel (no Xray), the built-in Rust exit node:\n" ++
  "     server (VPS): hydra server -c " ++ output ++ " --listen 0.0.0.0:443   # prints cert_pin\n" ++
  "     client:       set server_addr + cert_pin in " ++ output ++ ", then\n" ++
  "                   hydra serve -c " ++ output ++ " --listen 127.0.0.1:1080\n" ++
  "  B) Stock Xray REALITY server:\n" ++
  "     server:  hydra server-names -c " ++ output ++ " --format xray > reality-inbound.json\n" ++
  "     client:  hydra serve -c " ++ output ++ " --listen 127.0.0.1:1080"

def run (base64 : Engine) (keys : Generated) (files : Files) (args : InitArgs) : Ran :=
  let (toml, pbk, sid) := renderConfig base64 keys args
  if args.stdout then ⟨.ok toml, none⟩
  else if files.pathExists args.output && !args.force then ⟨.error (.alreadyExists args.output), none⟩
  else
    match files.write args.output toml with
    | .error source => ⟨.error (.io args.output source), none⟩
    | .ok () => ⟨.ok (summary args.output pbk sid), some (args.output, toml)⟩

/-- The configuration the command leaves: the file, or what `println!` puts on
the standard output. -/
def Produces (base64 : Engine) (keys : Generated) (files : Files) (args : InitArgs)
    (text : String) : Prop :=
  let ran := run base64 keys files args
  (∃ path, ran.written = some (path, text)) ∨
    (args.stdout = true ∧ ∃ printed, ran.result = .ok printed ∧ text = printed ++ "\n")

/-! ## The document -/

def plainEntry (key : String) (pad : Nat) (literal : Literal) : Line :=
  .entry key.toList pad literal none

def edgeLines : List Line :=
  [.blank,
    .comment " The single CDN edge probes fall back to. Every pool SNI MUST be a real".toList,
    .comment " domain served by this CDN (REALITY.md §5.3).".toList]

def tunnelLines : List Line :=
  [plainEntry "coherence_cidrs" 1 (.block (defaultCidrs.map String.toList)),
    .blank,
    .comment " ── Self-tunnel (no Xray): the Rust `hydra server` exit node ──".toList,
    .comment " Uncomment and point at YOUR VPS to use the built-in tunnel instead of a".toList,
    .comment " stock Xray REALITY server. `server_addr` is where the client dials; if".toList,
    .comment " left unset the client falls back to `dest`. `cert_pin` is printed by".toList,
    .comment " `hydra server` on first run (SHA-256 of its self-signed cert).".toList,
    .comment " server_addr = \"YOUR.VPS.IP:443\"".toList,
    .comment " cert_pin    = \"base64:...\"   # from `hydra server` output".toList,
    .blank]

def poolLines : List Line :=
  defaultPool.flatMap fun (sni, weight) =>
    [.heading (.element "pool".toList), plainEntry "sni" 4 (.string sni.toList),
      plainEntry "weight" 1 (.decimal (roundedTenths weight)), .blank]

def epochLine (args : InitArgs) : Line := plainEntry "epoch_len" 5 (.string args.epochLen.toList)

def kLine (args : InitArgs) : Line := plainEntry "active_k" 6 (.integer args.activeK.toNat)

def destLine (args : InitArgs) : Line := plainEntry "dest" 12 (.string args.dest.toList)

section Document

variable (base64 : Engine) (keys : Generated) (args : InitArgs)

def secretText (bytes : Bytes) : List Char :=
  ['b', 'a', 's', 'e', '6', '4', ':'] ++ base64.encode bytes

def secretsLines : List Line :=
  [.comment " hydra.toml — generated by `hydra init`.".toList,
    .comment " Secrets below are UNIQUE to this deployment. Keep this file private and".toList,
    .comment " distribute it to clients out of band (REALITY.md §12).".toList,
    .entry "master_secret".toList 1
      (.string (secretText base64 keys.masterSecret.privateKey.toList))
      (some ⟨3, " 32 B — rotate on suspected leak".toList⟩),
    .entry "server_salt".toList 3 (.string (secretText base64 keys.serverSalt))
      (some ⟨3, " 16 B — per-deployment".toList⟩),
    plainEntry "pool_format" 3 (.string "hydra-pool-v1".toList)]

def realityLines : List Line :=
  [.comment " REALITY handshake keys (this section is what `keygen` produces).".toList,
    .heading (.table "reality".toList),
    .entry "private_key".toList 1 (.string (secretText base64 keys.reality.privateKey.toList))
      (some ⟨3, " SERVER only — omit on client copies".toList⟩),
    .entry "public_key".toList 2 (.string (secretText base64 keys.reality.publicKey.toList))
      (some ⟨2, " client pbk".toList⟩),
    plainEntry "short_ids" 3 (.single (keys.shortId.flatMap hexByte)),
    plainEntry "fingerprint" 1 (.string "chrome".toList),
    .blank,
    .comment " ── SNI pool: replace with domains genuinely fronted by YOUR CDN ──".toList]

def afterDest : List Line := tunnelLines ++ (realityLines base64 keys ++ poolLines)

def document : List Line :=
  secretsLines base64 keys ++
    epochLine args :: kLine args :: (edgeLines ++ destLine args :: afterDest base64 keys)

end Document

/-! ### Its text

The literals are compared as lists of characters, line by line. -/

theorem cidrsText_toList :
    cidrsText.toList =
      ((defaultCidrs.map String.toList).map itemLine).flatMap (· ++ ['\n']) := by
  rw [cidrsText, String.toList_join, List.flatMap_map, List.map_map, List.flatMap_map]
  simp [itemLine, quoted]

/-- One decimal is enough for the weights, and binary fractions hold them. -/
structure Rendered (entry : String × ℚ) : Prop where
  named : entry.1 ≠ ""
  unescaped : Unescaped entry.1.toList
  positive : 0 < entry.2
  exact : (roundedTenths entry.2 : ℚ) / 10 = entry.2
  halves : roundedTenths entry.2 % 5 = 0 ∧ roundedTenths entry.2 < 2 ^ 53

theorem defaultPool_rendered : ∀ entry ∈ defaultPool, Rendered entry := by
  have checks : ∀ entry ∈ defaultPool, entry.1 ≠ "" ∧ Unescaped entry.1.toList ∧
      0 < entry.2 ∧ (roundedTenths entry.2 : ℚ) / 10 = entry.2 ∧
      roundedTenths entry.2 % 5 = 0 ∧ roundedTenths entry.2 < 2 ^ 53 := by
    decide +kernel
  intro entry isIn
  obtain ⟨named, unescaped, positive, same, halves⟩ := checks entry isIn
  exact ⟨named, unescaped, positive, same, halves⟩

theorem poolEntryText_toList (sni : String) {weight : ℚ} (positive : 0 < weight) :
    ("[[pool]]\nsni    = \"" ++ sni ++ "\"\nweight = " ++ oneDecimal weight ++ "\n\n").toList =
      render [.heading (.element "pool".toList), plainEntry "sni" 4 (.string sni.toList),
        plainEntry "weight" 1 (.decimal (roundedTenths weight)), .blank] := by
  simp [oneDecimal, positive.not_gt, plainEntry, entryFront, Heading.chars, render_blank,
    render_heading, render_string, render_decimal, noteChars_none]

theorem poolText_toList : poolText.toList = render poolLines := by
  rw [poolText, poolLines, ← flatMap_render, String.toList_join, List.flatMap_map]
  refine List.flatMap_congr ?_
  intro entry isIn
  exact poolEntryText_toList entry.1 (defaultPool_rendered entry isIn).positive

theorem edgeText_toList : edgeText.toList = render edgeLines := by
  unfold edgeText edgeLines
  simp only [-String.reduceToList, -String.reduceAppend, String.toList_append, List.append_assoc,
    render_blank, render_comment, render_nil]
  repeat rw [String.toList_ofList]
  simp only [List.cons_append, List.nil_append]

set_option maxRecDepth 2000 in
theorem tunnelText_toList : tunnelText.toList = render tunnelLines := by
  unfold tunnelText tunnelLines plainEntry
  simp only [-String.reduceToList, -String.reduceAppend, String.toList_append, List.append_assoc,
    cidrsText_toList, render_blank, render_comment, render_block, render_nil, noteChars_none,
    entryFront, List.replicate_succ, List.replicate_zero]
  repeat rw [String.toList_ofList]
  simp only [List.cons_append, List.nil_append]

section Interpolated

variable (base64 : Engine) (keys : Generated)

set_option maxRecDepth 2000 in
theorem secretsText_toList :
    (secretsText (b64 base64 keys.masterSecret.privateKey.toList)
      (b64 base64 keys.serverSalt)).toList = render (secretsLines base64 keys) := by
  unfold secretsText secretsLines plainEntry
  simp only [-String.reduceToList, -String.reduceAppend, String.toList_append, List.append_assoc,
    b64, secretText, String.toList_ofList, render_comment, render_string, render_nil,
    noteChars_none, noteChars_some, entryFront, List.replicate_succ, List.replicate_zero]
  repeat rw [String.toList_ofList]
  simp only [List.cons_append, List.nil_append]

set_option maxRecDepth 2000 in
theorem realityText_toList :
    (realityText (b64 base64 keys.reality.privateKey.toList)
      (b64 base64 keys.reality.publicKey.toList) (hex keys.shortId)).toList =
      render (realityLines base64 keys) := by
  unfold realityText realityLines plainEntry
  simp only [-String.reduceToList, -String.reduceAppend, String.toList_append, List.append_assoc,
    b64, hex, secretText, String.toList_ofList, render_blank, render_comment, render_heading,
    Heading.chars, render_string, render_single, render_nil, noteChars_none, noteChars_some,
    entryFront, List.replicate_succ, List.replicate_zero]
  repeat rw [String.toList_ofList]
  simp only [List.cons_append, List.nil_append]

theorem renderConfig_toList (args : InitArgs) :
    (renderConfig base64 keys args).1.toList = render (document base64 keys args) := by
  unfold renderConfig document afterDest epochLine kLine destLine plainEntry
  dsimp only
  simp only [-String.reduceToList, -String.reduceAppend, String.toList_append, List.append_assoc,
    Nat.toList_repr, secretsText_toList, edgeText_toList, tunnelText_toList, realityText_toList,
    poolText_toList, render_append, render_string, render_integer, noteChars_none, entryFront,
    List.replicate_succ, List.replicate_zero]
  repeat rw [String.toList_ofList]
  simp only [List.cons_append, List.nil_append]

end Interpolated

end RealityHydra.HydraCli
