import Mathlib.Tactic.IntervalCases
import RealityHydra.Lib.ByteCodec
import RealityHydra.Lib.Reading
import RealityHydra.Lib.Text

/-!
# Socket addresses as text

The grammar of Rust's `SocketAddr::from_str`, reader by reader, and the two
stages of resolving a string to a socket address: an IPv4 or bracketed IPv6
socket address first, otherwise a host and a decimal port about the last colon.
Then what the readers make of printed addresses, and of texts before a colon.
-/

set_option autoImplicit false

namespace RealityHydra.Lib.SocketAddress

open RealityHydra.Lib.ByteCodec
open RealityHydra.Lib.Reading
open RealityHydra.Lib.Text

variable {α : Type}

def readSeparator (separator : Char) (index : Nat) (inner : Reader α) : Reader α :=
  if 0 < index then do
    readGiven separator
    inner
  else inner

/-! ## The grammar -/

def readOctet : Reader UInt8 := do
  let octet ← readNumber 10 (2 ^ 8) (some 3) false
  pure (UInt8.ofNat octet)

def readIpv4Addr : Reader Bytes := do
  let a ← readSeparator '.' 0 readOctet
  let b ← readSeparator '.' 1 readOctet
  let c ← readSeparator '.' 2 readOctet
  let d ← readSeparator '.' 3 readOctet
  pure [a, b, c, d]

def readGroup : Reader UInt16 := do
  let group ← readNumber 16 (2 ^ 16) (some 4) true
  pure (UInt16.ofNat group)

/-- Two big-endian bytes to a group. -/
def pairs : Bytes → List UInt16
  | high :: low :: rest => UInt16.ofNat (beValue [high, low]) :: pairs rest
  | _ => []

def octets (groups : List UInt16) : Bytes :=
  groups.flatMap fun group => beBytes 2 group.toNat

/-- An embedded IPv4 address takes two groups. -/
def readEmbedded (left index : Nat) : Reader (Option Bytes) :=
  if 0 < left then attempt (readSeparator ':' index readIpv4Addr) else pure none

/-- Up to `left` more groups, `index` having been read, and whether an embedded
IPv4 address ended them. -/
def readGroups : Nat → Nat → Reader (List UInt16 × Bool)
  | 0, _ => pure ([], false)
  | left + 1, index => do
      let embedded ← readEmbedded left index
      match embedded with
      | some quad => pure (pairs quad, true)
      | none => do
          let group ← attempt (readSeparator ':' index readGroup)
          match group with
          | none => pure ([], false)
          | some group => do
              let later ← readGroups left (index + 1)
              pure (group :: later.1, later.2)

def readIpv6Addr : Reader Bytes := do
  let head ← readGroups 8 0
  if head.1.length = 8 then pure (octets head.1)
  else if head.2 then failure
  else do
    readGiven ':'
    readGiven ':'
    let tail ← readGroups (7 - head.1.length) 0
    let zeros := List.replicate (8 - head.1.length - tail.1.length) 0
    pure (octets (head.1 ++ zeros ++ tail.1))

def readPort : Reader UInt16 := do
  readGiven ':'
  let port ← readNumber 10 (2 ^ 16) none true
  pure (UInt16.ofNat port)

def readScopeId : Reader UInt32 := do
  readGiven '%'
  let scope ← readNumber 10 (2 ^ 32) none true
  pure (UInt32.ofNat scope)

inductive SocketAddr where
  | v4 (ip : Bytes) (port : UInt16)
  | v6 (ip : Bytes) (scopeId : UInt32) (port : UInt16)
  deriving DecidableEq, Repr

def readSocketAddrV4 : Reader SocketAddr := do
  let ip ← readIpv4Addr
  let port ← readPort
  pure (.v4 ip port)

/-- What stands between the brackets: an address, and a scope when it has one. -/
def readInside : Reader (Bytes × UInt32) := do
  readGiven '['
  let ip ← readIpv6Addr
  let scope ← attempt readScopeId
  pure (ip, scope.getD 0)

def readBracketed : Reader (Bytes × UInt32) := do
  let inside ← readInside
  readGiven ']'
  pure inside

def readSocketAddrV6 : Reader SocketAddr := do
  let inside ← readBracketed
  let port ← readPort
  pure (.v6 inside.1 inside.2 port)

def readSocketAddr : Reader SocketAddr := fun text =>
  (readSocketAddrV4 text).or (readSocketAddrV6 text)

/-- `u16::from_str`. -/
def parseU16 (text : List Char) : Option UInt16 :=
  let digits := (text.dropPrefix? ['+']).getD text
  let value := digitsValue 10 digits
  if digits = [] then none
  else if digits.all (isDigit 10) then
    if value < 2 ^ 16 then some (UInt16.ofNat value) else none
  else none

/-- What a string is resolved from: an address, or a host to look up. -/
inductive Resolved where
  | address (addr : SocketAddr)
  | lookup (host : String) (port : UInt16)
  deriving DecidableEq, Repr

/-- `ToSocketAddrs` of a string, up to the name lookup. -/
def toSocketAddrs (text : String) : Option Resolved :=
  match parseWith readSocketAddr text.toList with
  | some addr => some (.address addr)
  | none => do
      let (host, port) ← rsplitOnce ':' text.toList
      let port ← parseU16 port
      some (.lookup (String.ofList host) port)

/-! ## What each reader leaves, and where it stops -/

theorem Shortens.readSeparator {separator : Char} {index : Nat} {inner : Reader α}
    (shortens : Shortens inner) : Shortens (readSeparator separator index inner) := by
  unfold SocketAddress.readSeparator
  split
  · exact (Shortens.readGiven separator).bind fun _ => shortens
  · exact shortens

theorem readOctet_shortens : Shortens readOctet :=
  (Shortens.readNumber _ _ _ _).bind fun _ => Shortens.pure _

theorem readIpv4Addr_shortens : Shortens readIpv4Addr := by
  apply (Shortens.readSeparator readOctet_shortens).bind
  intro a
  apply (Shortens.readSeparator readOctet_shortens).bind
  intro b
  apply (Shortens.readSeparator readOctet_shortens).bind
  intro c
  apply (Shortens.readSeparator readOctet_shortens).bind
  intro d
  exact Shortens.pure _

theorem readGroup_shortens : Shortens readGroup :=
  (Shortens.readNumber _ _ _ _).bind fun _ => Shortens.pure _

theorem readEmbedded_shortens (left index : Nat) : Shortens (readEmbedded left index) := by
  unfold readEmbedded
  split
  · exact (Shortens.readSeparator readIpv4Addr_shortens).attempt
  · exact Shortens.pure _

theorem readGroups_shortens (left index : Nat) : Shortens (readGroups left index) := by
  induction left generalizing index with
  | zero => exact Shortens.pure _
  | succ left ih =>
      unfold readGroups
      apply (readEmbedded_shortens left index).bind
      intro embedded
      cases embedded with
      | some quad => exact Shortens.pure _
      | none =>
          apply (Shortens.readSeparator readGroup_shortens).attempt.bind
          intro group
          cases group with
          | none => exact Shortens.pure _
          | some group => exact (ih (index + 1)).bind fun _ => Shortens.pure _

theorem readIpv6Addr_shortens : Shortens readIpv6Addr := by
  apply (readGroups_shortens 8 0).bind
  intro head
  split
  · exact Shortens.pure _
  split
  · exact Shortens.failure
  apply (Shortens.readGiven ':').bind
  intro _
  apply (Shortens.readGiven ':').bind
  intro _
  exact (readGroups_shortens _ 0).bind fun _ => Shortens.pure _

theorem readInside_shortens : Shortens readInside := by
  apply (Shortens.readGiven '[').bind
  intro _
  apply readIpv6Addr_shortens.bind
  intro ip
  apply Shortens.bind
  · exact ((Shortens.readGiven '%').bind fun _ =>
      (Shortens.readNumber _ _ _ _).bind fun _ => Shortens.pure _).attempt
  intro scope
  exact Shortens.pure _

section Stops

variable {stop : Char → Prop}

theorem StopsAt.readSeparator {separator : Char} {index : Nat} {inner : Reader α}
    (other : ¬ stop separator) (stops : StopsAt stop inner) :
    StopsAt stop (readSeparator separator index inner) := by
  unfold SocketAddress.readSeparator
  split
  · exact (StopsAt.readGiven other).bind fun _ => stops
  · exact stops

theorem readIpv4Addr_stopsAt (dot : ¬ stop '.')
    (noDigit : ∀ c, stop c → isDigit 10 c = false) : StopsAt stop readIpv4Addr := by
  have octet : StopsAt stop readOctet :=
    (StopsAt.readNumber _ _ _ _ noDigit).bind fun _ => StopsAt.pure _
  apply (StopsAt.readSeparator dot octet).bind
  intro a
  apply (StopsAt.readSeparator dot octet).bind
  intro b
  apply (StopsAt.readSeparator dot octet).bind
  intro c
  apply (StopsAt.readSeparator dot octet).bind
  intro d
  exact StopsAt.pure _

theorem readGroups_stopsAt (dot : ¬ stop '.') (colon : ¬ stop ':')
    (noDigit : ∀ c, stop c → isDigit 10 c = false)
    (noHex : ∀ c, stop c → isDigit 16 c = false) (left index : Nat) :
    StopsAt stop (readGroups left index) := by
  have quad := readIpv4Addr_stopsAt dot noDigit
  have group : StopsAt stop readGroup :=
    (StopsAt.readNumber _ _ _ _ noHex).bind fun _ => StopsAt.pure _
  induction left generalizing index with
  | zero => exact StopsAt.pure _
  | succ left ih =>
      unfold readGroups
      have embedded : StopsAt stop (readEmbedded left index) := by
        unfold readEmbedded
        split
        · exact (StopsAt.readSeparator colon quad).attempt
        · exact StopsAt.pure _
      apply embedded.bind
      intro embedded
      cases embedded with
      | some quad => exact StopsAt.pure _
      | none =>
          apply (StopsAt.readSeparator colon group).attempt.bind
          intro group
          cases group with
          | none => exact StopsAt.pure _
          | some group => exact (ih (index + 1)).bind fun _ => StopsAt.pure _

end Stops

/-- Nothing between the brackets uses the closing one. -/
theorem readInside_stopsAt : StopsAt (· = ']') readInside := by
  have noDigit : ∀ c, c = ']' → isDigit 10 c = false := by
    rintro _ rfl
    decide
  have noHex : ∀ c, c = ']' → isDigit 16 c = false := by
    rintro _ rfl
    decide
  have groups : ∀ left index, StopsAt (· = ']') (readGroups left index) :=
    readGroups_stopsAt (by decide) (by decide) noDigit noHex
  apply (StopsAt.readGiven (by decide)).bind
  intro _
  apply StopsAt.bind
  · apply (groups 8 0).bind
    intro head
    split
    · exact StopsAt.pure _
    split
    · exact StopsAt.failure
    apply (StopsAt.readGiven (by decide)).bind
    intro _
    apply (StopsAt.readGiven (by decide)).bind
    intro _
    exact (groups _ 0).bind fun _ => StopsAt.pure _
  intro ip
  apply StopsAt.bind
  · apply StopsAt.attempt
    apply (StopsAt.readGiven (by decide)).bind
    intro _
    exact (StopsAt.readNumber _ _ _ _ noDigit).bind fun _ => StopsAt.pure _
  intro scope
  exact StopsAt.pure _

end RealityHydra.Lib.SocketAddress
