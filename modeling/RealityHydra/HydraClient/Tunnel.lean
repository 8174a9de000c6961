import RealityHydra.HydraClient.Socks5

/-!
# The client side of the tunnel

`TunnelClient::open` against an arbitrary peer.  The TLS stack is taken to call
the verifier on the certificate and then on the signature the peer offers for
the transcript, and to stop at the first error.
-/

set_option autoImplicit false

namespace RealityHydra.HydraClient

open RealityHydra.Lib.ByteCodec
open RealityHydra.Primitives
open RealityHydra.TunnelProto

abbrev SignatureScheme := UInt16

structure DigitallySignedStruct where
  scheme : SignatureScheme
  sig : Bytes
  deriving DecidableEq, Repr

structure RustlsError where
  text : String
  deriving DecidableEq, Repr

inductive TlsFailure where
  | peer (text : String)
  | verifier (error : RustlsError)
  deriving DecidableEq, Repr

/-- The errors of a connection; I/O errors by their texts. -/
inductive ClientError where
  | socks5 (error : Socks5Error)
  | noServerAddr
  | tunnelConnect (addr source : String)
  | tunnelTls (addr : String) (source : TlsFailure)
  | tunnelRejected (reason : String)
  | tls (text : String)
  | io (text : String)
  deriving DecidableEq, Repr

structure PinnedVerifier where
  pin : Option (Vector UInt8 32)
  schemes : List SignatureScheme
  deriving DecidableEq, Repr

namespace PinnedVerifier

def verifyServerCert (sha256 : Sha256) (verifier : PinnedVerifier) (endEntity : Bytes)
    (_intermediates : List Bytes) (_serverName : String) (_ocspResponse : Bytes)
    (_now : UInt64) : Except RustlsError Unit :=
  match verifier.pin with
  | none => .ok ()
  | some expected =>
      let got := sha256 endEntity
      if got = expected then .ok ()
      else .error ⟨"certificate pin mismatch: the exit node presented an unexpected " ++
        "certificate (wrong cert_pin, or a man-in-the-middle)"⟩

def verifyTls12Signature (_verifier : PinnedVerifier) (_message _cert : Bytes)
    (_dss : DigitallySignedStruct) : Except RustlsError Unit := .ok ()

def verifyTls13Signature (_verifier : PinnedVerifier) (_message _cert : Bytes)
    (_dss : DigitallySignedStruct) : Except RustlsError Unit := .ok ()

def supportedVerifySchemes (verifier : PinnedVerifier) : List SignatureScheme :=
  verifier.schemes

end PinnedVerifier

inductive TlsVersion where
  | tls12
  | tls13
  deriving DecidableEq, Repr

structure ServerFlight where
  version : TlsVersion
  endEntity : Bytes
  intermediates : List Bytes
  ocspResponse : Bytes
  message : Bytes
  dss : DigitallySignedStruct
  deriving DecidableEq, Repr

/-- Everything a peer decides: whether it is reached, what it presents, whether
the rest of the handshake, the header and its reply come through. -/
structure Peer where
  tcp : Except String Unit
  flight : Except String ServerFlight
  finish : Except String Unit
  headerWritten : Except String Unit
  reply : Except String UInt8

/-- What a client is run with: the hash functions and `ServerName::try_from`. -/
structure ClientEnv where
  hmac : HmacSha256
  sha256 : Sha256
  tryServerName : String → Except String String

structure TunnelClient where
  verifier : PinnedVerifier
  serverAddr : String
  masterSecret : Bytes
  deriving DecidableEq, Repr

/-- `versions` is the outcome of `with_safe_default_protocol_versions`. -/
def TunnelClient.new (schemes : List SignatureScheme) (versions : Except String Unit)
    (serverAddr : String) (certPin : Option (Vector UInt8 32)) (masterSecret : Bytes) :
    Except ClientError TunnelClient :=
  let verifier : PinnedVerifier := { pin := certPin, schemes }
  match versions with
  | .error text => .error (.tls text)
  | .ok _ => .ok { verifier, serverAddr, masterSecret }

def handshakeCallbacks (sha256 : Sha256) (verifier : PinnedVerifier) (serverName : String)
    (now : UInt64) (flight : ServerFlight) : Except RustlsError Unit := do
  verifier.verifyServerCert sha256 flight.endEntity flight.intermediates serverName
    flight.ocspResponse now
  match flight.version with
  | .tls12 => verifier.verifyTls12Signature flight.message flight.endEntity flight.dss
  | .tls13 => verifier.verifyTls13Signature flight.message flight.endEntity flight.dss

def tlsConnect (sha256 : Sha256) (verifier : PinnedVerifier) (peer : Peer)
    (serverName : String) (now : UInt64) : Except TlsFailure Unit := do
  let flight ← peer.flight.mapError .peer
  (handshakeCallbacks sha256 verifier serverName now flight).mapError .verifier
  peer.finish.mapError .peer

def chooseServerName (env : ClientEnv) (sni : String) : Except ClientError String :=
  match env.tryServerName sni with
  | .ok serverName => .ok serverName
  | .error _ =>
      match env.tryServerName "www.microsoft.com" with
      | .ok serverName => .ok serverName
      | .error text => .error (.tls ("invalid server name: " ++ text))

/-- What the exit node's reply byte means to the client. -/
def replyVerdict (target : Target) (replyByte : UInt8) : Except ClientError Unit :=
  if replyByte = Reply.ok then .ok ()
  else if replyByte = Reply.authFail then
    .error (.tunnelRejected
      "exit node rejected authentication (check master_secret matches the server)")
  else if replyByte = Reply.dialFail then
    .error (.tunnelRejected ("exit node could not reach " ++ target.display))
  else
    .error (.tunnelRejected ("unexpected reply byte 0x" ++ hexByte replyByte))

/-- The bytes `open` has given to the peer, and what it returns. -/
structure Opening where
  sent : Bytes
  result : Except ClientError Unit

def TunnelClient.open (client : TunnelClient) (env : ClientEnv) (peer : Peer)
    (sni : String) (target : Target) (now : UInt64) : Opening :=
  match peer.tcp with
  | .error source => ⟨[], .error (.tunnelConnect client.serverAddr source)⟩
  | .ok _ =>
      match chooseServerName env sni with
      | .error invalid => ⟨[], .error invalid⟩
      | .ok serverName =>
          match tlsConnect env.sha256 client.verifier peer serverName now with
          | .error source => ⟨[], .error (.tunnelTls client.serverAddr source)⟩
          | .ok _ =>
              let header := encodeRequest env.hmac client.masterSecret now target
              match peer.headerWritten with
              | .error text => ⟨header, .error (.io text)⟩
              | .ok _ =>
                  match peer.reply with
                  | .error text => ⟨header, .error (.io text)⟩
                  | .ok replyByte => ⟨header, replyVerdict target replyByte⟩

/-- Everything the peer receives when `upload` is relayed after `open`. -/
def TunnelClient.received (client : TunnelClient) (env : ClientEnv) (peer : Peer)
    (sni : String) (target : Target) (now : UInt64) (upload : Bytes) : Bytes :=
  let opening := client.open env peer sni target now
  match opening.result with
  | .ok _ => opening.sent ++ upload
  | .error _ => opening.sent

/-! ## What the pin proves -/

section Authentication

variable (signatureValid : Bytes → Bytes → DigitallySignedStruct → Prop)

def Authentic (sha256 : Sha256) (pin : Vector UInt8 32) (flight : ServerFlight) : Prop :=
  sha256 flight.endEntity = pin ∧
    signatureValid flight.endEntity flight.message flight.dss

/-- The handshake finishes, and anything is sent, only to an authentic peer. -/
def AuthenticatesPeer (env : ClientEnv) (pin : Vector UInt8 32) (client : TunnelClient)
    (peer : Peer) (sni : String) (target : Target) (now : UInt64) (upload : Bytes) : Prop :=
  (∀ flight serverName, peer.flight = .ok flight →
    handshakeCallbacks env.sha256 client.verifier serverName now flight = .ok () →
      Authentic signatureValid env.sha256 pin flight) ∧
  (client.received env peer sni target now upload ≠ [] →
    ∃ flight, peer.flight = .ok flight ∧ Authentic signatureValid env.sha256 pin flight)

end Authentication

theorem TunnelClient.new_verifier {schemes : List SignatureScheme}
    {versions : Except String Unit} {serverAddr : String}
    {certPin : Option (Vector UInt8 32)} {masterSecret : Bytes} {client : TunnelClient}
    (built : TunnelClient.new schemes versions serverAddr certPin masterSecret = .ok client) :
    client.verifier = { pin := certPin, schemes } := by
  cases versions with
  | error text => contradiction
  | ok _ =>
      cases Except.ok.inj built
      rfl

theorem handshakeCallbacks_ok_iff (sha256 : Sha256) (verifier : PinnedVerifier)
    (pin : Vector UInt8 32) (pinned : verifier.pin = some pin) (serverName : String)
    (now : UInt64) (flight : ServerFlight) :
    handshakeCallbacks sha256 verifier serverName now flight = .ok () ↔
      sha256 flight.endEntity = pin := by
  unfold handshakeCallbacks PinnedVerifier.verifyServerCert
  rw [pinned]
  by_cases matched : sha256 flight.endEntity = pin
  · simp only [matched, if_true, iff_true]
    cases flight.version <;> rfl
  · simp only [matched, if_false, iff_false]
    intro finished
    contradiction

theorem tlsConnect_ok {sha256 : Sha256} {verifier : PinnedVerifier} {peer : Peer}
    {serverName : String} {now : UInt64}
    (connected : tlsConnect sha256 verifier peer serverName now = .ok ()) :
    ∃ flight, peer.flight = .ok flight ∧
      handshakeCallbacks sha256 verifier serverName now flight = .ok () := by
  unfold tlsConnect at connected
  cases presented : peer.flight with
  | error text =>
      rw [presented] at connected
      contradiction
  | ok flight =>
      refine ⟨flight, rfl, ?_⟩
      cases called : handshakeCallbacks sha256 verifier serverName now flight with
      | error rejected =>
          simp only [presented, called, Except.mapError, bind, Except.bind] at connected
          contradiction
      | ok _ => rfl

theorem TunnelClient.open_cases (client : TunnelClient) (env : ClientEnv) (peer : Peer)
    (sni : String) (target : Target) (now : UInt64) :
    (∃ failure, client.open env peer sni target now = ⟨[], .error failure⟩) ∨
      ∃ serverName, tlsConnect env.sha256 client.verifier peer serverName now = .ok () := by
  unfold TunnelClient.open
  split
  · exact Or.inl ⟨_, rfl⟩
  split
  · exact Or.inl ⟨_, rfl⟩
  split
  · exact Or.inl ⟨_, rfl⟩
  · rename_i serverName _ _ _ connected
    exact Or.inr ⟨serverName, connected⟩

/-- With everything before it in place, the reply byte alone is the result. -/
theorem TunnelClient.open_of_reply (client : TunnelClient) (env : ClientEnv) (peer : Peer)
    (sni serverName : String) (target : Target) (now : UInt64) (replyByte : UInt8)
    (tcp : peer.tcp = .ok ()) (named : chooseServerName env sni = .ok serverName)
    (connected : tlsConnect env.sha256 client.verifier peer serverName now = .ok ())
    (headerWritten : peer.headerWritten = .ok ()) (replied : peer.reply = .ok replyByte) :
    client.open env peer sni target now =
      ⟨encodeRequest env.hmac client.masterSecret now target,
        replyVerdict target replyByte⟩ := by
  simp only [TunnelClient.open, tcp, named, connected, headerWritten, replied]

theorem replyVerdict_ok_iff {target : Target} {replyByte : UInt8} :
    replyVerdict target replyByte = .ok () ↔ replyByte = Reply.ok := by
  unfold replyVerdict
  split
  · rename_i isOk
    simp [isOk]
  · rename_i other
    refine iff_of_false ?_ other
    split
    · nofun
    · split
      · nofun
      · nofun

/-- The tunnel is open only once the peer has answered OK. -/
theorem TunnelClient.open_ok {client : TunnelClient} {env : ClientEnv} {peer : Peer}
    {sni : String} {target : Target} {now : UInt64}
    (opened : (client.open env peer sni target now).result = .ok ()) :
    peer.reply = .ok Reply.ok := by
  unfold TunnelClient.open at opened
  split at opened
  · contradiction
  split at opened
  · contradiction
  split at opened
  · contradiction
  dsimp only at opened
  split at opened
  · contradiction
  split at opened
  · contradiction
  · rename_i replyByte replied
    rw [replied, replyVerdict_ok_iff.mp opened]

theorem TunnelClient.sent_after_handshake (client : TunnelClient) (env : ClientEnv)
    (peer : Peer) (sni : String) (target : Target) (now : UInt64) (upload : Bytes)
    (sent : client.received env peer sni target now upload ≠ []) :
    ∃ flight serverName, peer.flight = .ok flight ∧
      handshakeCallbacks env.sha256 client.verifier serverName now flight = .ok () := by
  rcases client.open_cases env peer sni target now with failed | connected
  · obtain ⟨failure, failed⟩ := failed
    simp only [TunnelClient.received, failed] at sent
    exact absurd rfl sent
  · obtain ⟨serverName, connected⟩ := connected
    obtain ⟨flight, presented, finished⟩ := tlsConnect_ok connected
    exact ⟨flight, serverName, presented, finished⟩

/-- A pinned client authenticates a peer exactly when the peer, if it presents
the pinned certificate, also signs the transcript with its key: the pin alone
decides, and the offered signature is never looked at. -/
theorem pinned_client_authenticates_iff
    (signatureValid : Bytes → Bytes → DigitallySignedStruct → Prop) (env : ClientEnv)
    (schemes : List SignatureScheme) (versions : Except String Unit) (serverAddr : String)
    (pin : Vector UInt8 32) (masterSecret : Bytes) (client : TunnelClient)
    (built : TunnelClient.new schemes versions serverAddr (some pin) masterSecret =
      .ok client)
    (peer : Peer) (sni : String) (target : Target) (now : UInt64) (upload : Bytes) :
    AuthenticatesPeer signatureValid env pin client peer sni target now upload ↔
      ∀ flight, peer.flight = .ok flight → env.sha256 flight.endEntity = pin →
        signatureValid flight.endEntity flight.message flight.dss := by
  have pinned : client.verifier.pin = some pin := by rw [TunnelClient.new_verifier built]
  have accepts := handshakeCallbacks_ok_iff env.sha256 client.verifier pin pinned
  refine ⟨?_, ?_⟩
  · intro authenticates flight presented matched
    exact (authenticates.1 flight sni presented
      ((accepts sni now flight).mpr matched)).2
  · intro signs
    have authentic : ∀ flight serverName, peer.flight = .ok flight →
        handshakeCallbacks env.sha256 client.verifier serverName now flight = .ok () →
          Authentic signatureValid env.sha256 pin flight := by
      intro flight serverName presented finished
      have matched := (accepts serverName now flight).mp finished
      exact ⟨matched, signs flight presented matched⟩
    refine ⟨authentic, ?_⟩
    intro sent
    obtain ⟨flight, serverName, presented, finished⟩ :=
      client.sent_after_handshake env peer sni target now upload sent
    exact ⟨flight, presented, authentic flight serverName presented finished⟩

/-- The hash and the signature scheme of a small example: a certificate hashes
to its first byte, and signing a transcript is repeating it. -/
def firstByteEnv : ClientEnv where
  hmac _ _ := Vector.replicate 32 0
  sha256 der := Vector.replicate 32 (byteAt der 0)
  tryServerName sni := .ok sni

def echoSignatureValid (_leaf message : Bytes) (dss : DigitallySignedStruct) : Prop :=
  dss.sig = message

/-- A peer that presents the certificate `[7]` and offers `sig` for the
transcript `[1, 2, 3]`. -/
def sevenPeer (sig : Bytes) : Peer where
  tcp := .ok ()
  flight := .ok
    { version := .tls13, endEntity := [7], intermediates := [], ocspResponse := [],
      message := [1, 2, 3], dss := { scheme := 0x0403, sig } }
  finish := .ok ()
  headerWritten := .ok ()
  reply := .ok Reply.ok

def sevenClient : TunnelClient where
  verifier := { pin := some (Vector.replicate 32 7), schemes := [0x0403] }
  serverAddr := "exit.example:443"
  masterSecret := []

def loopbackTarget : Target := { host := .v4 #v[127, 0, 0, 1], port := 80 }

theorem pinned_client_authenticates_signing_peer :
    AuthenticatesPeer echoSignatureValid firstByteEnv (Vector.replicate 32 7) sevenClient
      (sevenPeer [1, 2, 3]) "www.example.com" loopbackTarget 0 [9] := by
  refine (pinned_client_authenticates_iff echoSignatureValid firstByteEnv [0x0403] (.ok ())
    "exit.example:443" (Vector.replicate 32 7) [] sevenClient rfl (sevenPeer [1, 2, 3])
    "www.example.com" loopbackTarget 0 [9]).mpr ?_
  intro flight presented _
  cases Except.ok.inj presented
  rfl

/-- A peer that only knows the public certificate and signs nothing receives the
header and what is relayed after it. -/
theorem impostor_with_public_certificate_receives_header :
    ¬ ∀ peer : Peer, AuthenticatesPeer echoSignatureValid firstByteEnv (Vector.replicate 32 7)
      sevenClient peer "www.example.com" loopbackTarget 0 [9] := by
  intro authenticates
  have received : sevenClient.received firstByteEnv (sevenPeer []) "www.example.com" loopbackTarget 0
      [9] ≠ [] := by decide
  obtain ⟨flight, presented, authentic⟩ := (authenticates (sevenPeer [])).2 received
  cases Except.ok.inj presented
  have signed : ([] : Bytes) = [1, 2, 3] := authentic.2
  contradiction

end RealityHydra.HydraClient
