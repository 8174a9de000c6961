import RealityHydra.PoolEngine.Sampler
import RealityHydra.TunnelProto.Wire

/-!
# What the master secret authenticates

The exit node keys its tunnel with the secret that also seeds the pools.  No
message of the one use is a message of the other, and each message says what it
was made for.
-/

set_option autoImplicit false

namespace RealityHydra.HydraCli

open RealityHydra.Lib.ByteCodec
open RealityHydra.PoolEngine
open RealityHydra.Primitives
open RealityHydra.TunnelProto

inductive KeyUse where
  | seed (serverSalt : Vector UInt8 saltLen) (epoch : Epoch)
  | header (timestamp : UInt64) (target : Target)
  deriving DecidableEq

def KeyUse.message : KeyUse → Bytes
  | seed serverSalt epoch => domainTag ++ serverSalt.toList ++ leBytes 8 epoch.toNat
  | header timestamp target => signedBytes timestamp target

/-- What HMAC returns for the use: the seed, or the tag that ends the header. -/
def KeyUse.tag (hmac : HmacSha256) (masterSecret : Bytes) : KeyUse → Vector UInt8 32
  | seed serverSalt epoch => deriveSeed hmac masterSecret serverSalt epoch
  | header timestamp target => mac hmac masterSecret (signedBytes timestamp target)

theorem KeyUse.tag_eq (hmac : HmacSha256) (masterSecret : Bytes) (use : KeyUse) :
    use.tag hmac masterSecret = hmac masterSecret use.message := by
  cases use with
  | seed serverSalt epoch => rfl
  | header timestamp target => rfl

section Headers

variable {timestamp timestamp' : UInt64} {target target' : Target}

theorem leBytes_uint64_inj {left right : UInt64}
    (same : leBytes 8 left.toNat = leBytes 8 right.toNat) : left = right :=
  UInt64.toNat_inj.mp (leBytes_injective left.toNat_lt right.toNat_lt same)

theorem beBytes_uint16_inj {left right : UInt16}
    (same : beBytes 2 left.toNat = beBytes 2 right.toNat) : left = right := by
  have values := congrArg beValue same
  rw [beValue_beBytes 2 _ left.toNat_lt, beValue_beBytes 2 _ right.toNat_lt] at values
  exact UInt16.toNat_inj.mp values

theorem addrBytes_injective {host host' : Host} (same : host.addrBytes = host'.addrBytes) :
    host = host' := by
  cases host with
  | v4 a =>
      cases host' with
      | v4 b =>
          obtain ⟨_, octets⟩ := List.cons.inj same
          rw [Vector.toList_inj.mp octets]
      | domain name => exact absurd (List.cons.inj same).1 (by decide)
      | v6 b => exact absurd (List.cons.inj same).1 (by decide)
  | domain name =>
      cases host' with
      | v4 b => exact absurd (List.cons.inj same).1 (by decide)
      | domain name' =>
          obtain ⟨_, text⟩ := List.cons.inj (List.cons.inj same).2
          rw [utf8Bytes_injective text]
      | v6 b => exact absurd (List.cons.inj same).1 (by decide)
  | v6 a =>
      cases host' with
      | v4 b => exact absurd (List.cons.inj same).1 (by decide)
      | domain name => exact absurd (List.cons.inj same).1 (by decide)
      | v6 b =>
          obtain ⟨_, octets⟩ := List.cons.inj same
          rw [Vector.toList_inj.mp octets]

/-- The fixed-width ends are cut off first; what is left is the address, however
its length byte came out. -/
theorem signedBytes_injective
    (same : signedBytes timestamp target = signedBytes timestamp' target') :
    timestamp = timestamp' ∧ target = target' := by
  rw [signedBytes_eq, signedBytes_eq] at same
  obtain ⟨front, back⟩ := List.append_inj same (by simp)
  obtain ⟨address, port⟩ := List.append_inj' back (by simp)
  refine ⟨leBytes_uint64_inj (List.cons.inj front).2, ?_⟩
  cases target
  cases target'
  rw [Target.mk.injEq]
  exact ⟨addrBytes_injective address, beBytes_uint16_inj port⟩

end Headers

section Prefixes

def HostFits (host : Host) : Prop :=
  ∀ d, host = .domain d → (utf8Bytes d).length ≤ maxDomainLen

/-- Within the DNS limit the length byte is the length. -/
theorem lengthByte_inj {left right : Bytes} (leftFits : left.length ≤ maxDomainLen)
    (rightFits : right.length ≤ maxDomainLen)
    (same : UInt8.ofNat left.length = UInt8.ofNat right.length) : left.length = right.length := by
  have values := congrArg UInt8.toNat same
  rw [UInt8.toNat_ofNat', UInt8.toNat_ofNat'] at values
  unfold maxDomainLen at leftFits rightFits
  omega

theorem addrBytes_prefixFree : PrefixFree HostFits Host.addrBytes := by
  intro host host' fits fits' rest rest' same
  have first := congrArg List.head? same
  cases host with
  | v4 a =>
      cases host' with
      | v4 b =>
          obtain ⟨octets, rests⟩ := List.append_inj (List.cons.inj same).2 (by simp)
          exact ⟨by rw [Vector.toList_inj.mp octets], rests⟩
      | domain name => exact absurd (Option.some.inj first) (by decide)
      | v6 b => exact absurd (Option.some.inj first) (by decide)
  | domain name =>
      cases host' with
      | v4 b => exact absurd (Option.some.inj first) (by decide)
      | domain name' =>
          obtain ⟨lengthByte, texts⟩ := List.cons.inj (List.cons.inj same).2
          have lengths := lengthByte_inj (fits name rfl) (fits' name' rfl) lengthByte
          obtain ⟨text, rests⟩ := List.append_inj texts lengths
          exact ⟨by rw [utf8Bytes_injective text], rests⟩
      | v6 b => exact absurd (Option.some.inj first) (by decide)
  | v6 a =>
      cases host' with
      | v4 b => exact absurd (Option.some.inj first) (by decide)
      | domain name => exact absurd (Option.some.inj first) (by decide)
      | v6 b =>
          obtain ⟨octets, rests⟩ := List.append_inj (List.cons.inj same).2 (by simp)
          exact ⟨by rw [Vector.toList_inj.mp octets], rests⟩

def timestampField (timestamp : UInt64) : Bytes := version :: leBytes 8 timestamp.toNat

theorem timestampField_prefixFree : PrefixFree (fun _ => True) timestampField :=
  PrefixFree.of_length 9 (by simp [timestampField])
    fun _ _ same => leBytes_uint64_inj (List.cons.inj same).2

theorem port_prefixFree : PrefixFree (fun _ => True) fun port : UInt16 => beBytes 2 port.toNat :=
  PrefixFree.of_length 2 (by simp) fun _ _ same => beBytes_uint16_inj same

theorem signedBytes_eq_of_prefix {timestamp timestamp' : UInt64} {target target' : Target}
    (fits : target.DomainFits) (fits' : target'.DomainFits)
    (prefixed : signedBytes timestamp target <+: signedBytes timestamp' target') :
    timestamp = timestamp' ∧ target = target' := by
  have header := timestampField_prefixFree.append (addrBytes_prefixFree.append port_prefixFree)
  rw [signedBytes_eq, signedBytes_eq] at prefixed
  have same : (timestamp, target.host, target.port) = (timestamp', target'.host, target'.port) :=
    header.eq_of_prefix ⟨trivial, fits, trivial⟩ ⟨trivial, fits', trivial⟩ prefixed
  cases target
  cases target'
  cases same
  exact ⟨rfl, rfl⟩

end Prefixes

theorem seed_injective {serverSalt serverSalt' : Vector UInt8 saltLen} {epoch epoch' : Epoch}
    (same : (KeyUse.seed serverSalt epoch).message = (KeyUse.seed serverSalt' epoch').message) :
    serverSalt = serverSalt' ∧ epoch = epoch' := by
  obtain ⟨front, epochs⟩ := List.append_inj' same (by simp)
  exact ⟨Vector.toList_inj.mp (List.append_cancel_left front), leBytes_uint64_inj epochs⟩

/-- The tag begins with a letter, every header with the version. -/
theorem seed_ne_header (serverSalt : Vector UInt8 saltLen) (epoch : Epoch)
    (timestamp : UInt64) (target : Target) :
    (KeyUse.seed serverSalt epoch).message ≠ (KeyUse.header timestamp target).message := by
  intro same
  have first := congrArg List.head? same
  rw [KeyUse.message, KeyUse.message, signedBytes_eq] at first
  have tagged : domainTag = 104 :: domainTag.tail := by decide
  rw [tagged] at first
  exact absurd (Option.some.inj first) (by decide)

/-- One secret serves both uses without ever authenticating one message twice;
within the DNS limit no header's message even begins another's. -/
theorem master_secret_messages_distinct :
    (∀ (hmac : HmacSha256) (masterSecret : Bytes) (use : KeyUse),
      use.tag hmac masterSecret = hmac masterSecret use.message) ∧
    (∀ (hmac : HmacSha256) (masterSecret : Bytes) (timestamp : UInt64) (target : Target),
      let use := KeyUse.header timestamp target
      encodeRequest hmac masterSecret timestamp target =
        use.message ++ (use.tag hmac masterSecret).toList) ∧
    Function.Injective KeyUse.message ∧
    ∀ timestamp timestamp' target target', target.DomainFits → target'.DomainFits →
      signedBytes timestamp target <+: signedBytes timestamp' target' →
      signedBytes timestamp target = signedBytes timestamp' target' := by
  refine ⟨KeyUse.tag_eq, fun _ _ _ _ => rfl, ?_, ?_⟩
  · intro left right same
    cases left with
    | seed serverSalt epoch =>
        cases right with
        | seed serverSalt' epoch' =>
            obtain ⟨salts, epochs⟩ := seed_injective same
            rw [salts, epochs]
        | header timestamp target => exact (seed_ne_header _ _ _ _ same).elim
    | header timestamp target =>
        cases right with
        | seed serverSalt epoch => exact (seed_ne_header _ _ _ _ same.symm).elim
        | header timestamp' target' =>
            obtain ⟨times, targets⟩ := signedBytes_injective same
            rw [times, targets]
  · intro timestamp timestamp' target target' fits fits' prefixed
    obtain ⟨rfl, rfl⟩ := signedBytes_eq_of_prefix fits fits' prefixed
    rfl

theorem shorter_domain_begins_no_longer_one :
    ¬ signedBytes 0 ⟨.domain "a", 80⟩ <+: signedBytes 0 ⟨.domain "ab", 80⟩ := by
  intro prefixed
  have same := master_secret_messages_distinct.2.2.2 0 0 ⟨.domain "a", 80⟩ ⟨.domain "ab", 80⟩
    (by decide) (by decide) prefixed
  exact absurd (congrArg List.length same) (by decide)

end RealityHydra.HydraCli
