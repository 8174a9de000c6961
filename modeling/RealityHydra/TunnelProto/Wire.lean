import RealityHydra.Primitives

/-!
# The CONNECT header on the wire

`version || timestamp (LE64) || atyp || address || port (BE16) || mac`, where
the tag covers every byte before it.  A domain carries one length byte; the
encoder truncates the length to that byte and does not check `maxDomainLen`.
-/

set_option autoImplicit false

namespace RealityHydra.TunnelProto

open RealityHydra.Lib.ByteCodec
open RealityHydra.Primitives

def version : UInt8 := 1

def macLen : Nat := 32

def atypIpv4 : UInt8 := 0x01
def atypDomain : UInt8 := 0x03
def atypIpv6 : UInt8 := 0x04

namespace Reply

def ok : UInt8 := 0x00

def authFail : UInt8 := 0x01

def dialFail : UInt8 := 0x02

end Reply

def maxDomainLen : Nat := 253

inductive Host where
  | v4 (octets : Vector UInt8 4)
  | domain (name : String)
  | v6 (octets : Vector UInt8 16)
  deriving DecidableEq, Repr

structure Target where
  host : Host
  port : UInt16
  deriving DecidableEq, Repr

/-- `{:02x}{:02x}` of each pair of address bytes. -/
def hexGroups : Bytes → List String
  | high :: low :: rest => (hexByte high ++ hexByte low) :: hexGroups rest
  | _ => []

def Target.display (target : Target) : String :=
  match target.host with
  | .v4 a =>
      toString a[0] ++ "." ++ toString a[1] ++ "." ++ toString a[2] ++ "." ++
        toString a[3] ++ ":" ++ toString target.port
  | .domain d => d ++ ":" ++ toString target.port
  | .v6 a =>
      "[" ++ String.intercalate ":" (hexGroups a.toList) ++ "]:" ++
        toString target.port

def Host.addrBytes : Host → Bytes
  | .v4 a => atypIpv4 :: a.toList
  | .domain d =>
      atypDomain :: UInt8.ofNat (utf8Bytes d).length :: utf8Bytes d
  | .v6 a => atypIpv6 :: a.toList

def Target.encodeAddr (target : Target) (out : Bytes) : Bytes :=
  out ++ target.host.addrBytes ++ beBytes 2 target.port.toNat

def mac (hmac : HmacSha256) (key preceding : Bytes) : Vector UInt8 macLen :=
  hmac key preceding

/-- The bytes of a header that its tag covers. -/
def signedBytes (timestamp : UInt64) (target : Target) : Bytes :=
  target.encodeAddr ([version] ++ leBytes 8 timestamp.toNat)

def encodeRequest (hmac : HmacSha256) (key : Bytes) (timestamp : UInt64)
    (target : Target) : Bytes :=
  let buf := signedBytes timestamp target
  buf ++ (mac hmac key buf).toList

/-- What the parser demands of a domain, and the encoder does not. -/
def Target.DomainFits (target : Target) : Prop :=
  ∀ d, target.host = .domain d → (utf8Bytes d).length ≤ maxDomainLen

instance (target : Target) : Decidable target.DomainFits :=
  match held : target.host with
  | .v4 _ => .isTrue fun _ same => by rw [held] at same; contradiction
  | .v6 _ => .isTrue fun _ same => by rw [held] at same; contradiction
  | .domain d =>
      if fits : (utf8Bytes d).length ≤ maxDomainLen then
        .isTrue fun name same => by
          rw [held] at same
          exact Host.domain.inj same ▸ fits
      else .isFalse fun all => fits (all d held)

/-! ## Shape of the encoding -/

theorem signedBytes_eq (timestamp : UInt64) (target : Target) :
    signedBytes timestamp target =
      (version :: leBytes 8 timestamp.toNat) ++
        (target.host.addrBytes ++ beBytes 2 target.port.toNat) := by
  simp [signedBytes, Target.encodeAddr]

theorem signedBytes_length (timestamp : UInt64) (target : Target) :
    (signedBytes timestamp target).length =
      9 + target.host.addrBytes.length + 2 := by
  rw [signedBytes_eq]
  simp only [List.length_append, List.length_cons, leBytes_length,
    beBytes_length]
  omega

theorem encodeRequest_length (hmac : HmacSha256) (key : Bytes)
    (timestamp : UInt64) (target : Target) :
    (encodeRequest hmac key timestamp target).length =
      9 + target.host.addrBytes.length + 2 + macLen := by
  simp only [encodeRequest, List.length_append, signedBytes_length,
    Vector.length_toList]

theorem encodeRequest_ne_nil (hmac : HmacSha256) (key : Bytes)
    (timestamp : UInt64) (target : Target) :
    encodeRequest hmac key timestamp target ≠ [] := by
  intro empty
  have length := encodeRequest_length hmac key timestamp target
  rw [empty, List.length_nil] at length
  omega

end RealityHydra.TunnelProto
