import RealityHydra.HydraClient.Socks5

/-!
# The grammar the SOCKS5 handshake accepts

A greeting and a request as relations between bytes and what they ask for, with
the bytes behind them.  The handshake returns exactly on these, leaves what
stands behind them unread, and refuses everything else without a success reply.
-/

set_option autoImplicit false

namespace RealityHydra.HydraClient

open RealityHydra.Lib.ByteCodec
open RealityHydra.Lib.ByteSocket

/-- `05 n m1..mn`, and what follows. -/
def BeginsGreeting (stream rest : Bytes) : Prop :=
  ∃ (n : UInt8) (methods : Bytes), methods.length = n.toNat ∧
    stream = 0x05 :: n :: (methods ++ rest)

/-- `atyp body port`, the port big-endian. -/
inductive AddressBytes : Bytes → Socks5Addr → Prop where
  | ipv4 (octets : Vector UInt8 4) (port : UInt16) :
      AddressBytes (0x01 :: (octets.toList ++ beBytes 2 port.toNat)) (.ipv4 octets port)
  | domain (len : UInt8) (body : Bytes) (name : String) (port : UInt16)
      (width : body.length = len.toNat) (valid : fromUtf8 body = some name) :
      AddressBytes (0x03 :: len :: (body ++ beBytes 2 port.toNat)) (.domain name port)
  | ipv6 (octets : Vector UInt8 16) (port : UInt16) :
      AddressBytes (0x04 :: (octets.toList ++ beBytes 2 port.toNat)) (.ipv6 octets port)

/-- `05 n m1..mn 05 01 x atyp body port ++ rest`, asking for `addr`. -/
def Asks (stream : Bytes) (addr : Socks5Addr) (rest : Bytes) : Prop :=
  ∃ (x : UInt8) (encoded : Bytes), AddressBytes encoded addr ∧
    BeginsGreeting stream (0x05 :: 0x01 :: x :: (encoded ++ rest))

/-! ## The grammar and the requests that are read -/

theorem beginsGreeting_iff {stream rest : Bytes} :
    BeginsGreeting stream rest ↔
      ∃ methods : Bytes, methods.length ≤ 255 ∧
        stream = 0x05 :: UInt8.ofNat methods.length :: (methods ++ rest) := by
  constructor
  · intro begins
    obtain ⟨n, methods, length, rfl⟩ := begins
    have bound := n.toNat_lt
    refine ⟨methods, by omega, ?_⟩
    rw [length, UInt8.ofNat_toNat]
  · intro begins
    obtain ⟨methods, few, rfl⟩ := begins
    exact ⟨UInt8.ofNat methods.length, methods, (lengthByte_toNat few).symm, rfl⟩

theorem addressBytes_iff {encoded : Bytes} {addr : Socks5Addr} :
    AddressBytes encoded addr ↔ addr.LengthFits ∧ encoded = addr.requestBytes := by
  constructor
  · intro spelled
    cases spelled with
    | ipv4 octets port => exact ⟨trivial, rfl⟩
    | ipv6 octets port => exact ⟨trivial, rfl⟩
    | domain len body name port width valid =>
        have stored := utf8Bytes_of_fromUtf8 valid
        have bound := len.toNat_lt
        refine ⟨?_, ?_⟩
        · rw [Socks5Addr.LengthFits, stored]
          omega
        · rw [Socks5Addr.requestBytes, stored, width, UInt8.ofNat_toNat]
  · intro spelled
    obtain ⟨fits, rfl⟩ := spelled
    cases addr with
    | ipv4 octets port => exact .ipv4 octets port
    | ipv6 octets port => exact .ipv6 octets port
    | domain name port =>
        exact .domain _ (utf8Bytes name) name port (lengthByte_toNat fits).symm
          (fromUtf8_utf8Bytes name)

theorem greet_of_begins {stream rest : Bytes} (begins : BeginsGreeting stream rest) :
    greet ⟨stream, []⟩ = .ok () ⟨rest, [0x05, 0x00]⟩ := by
  obtain ⟨methods, few, whole⟩ := beginsGreeting_iff.mp begins
  exact (greet_ok_iff _ _ _).mpr ⟨methods, few, whole, rfl⟩

theorem handshake_ok_iff_asks (stream rest written : Bytes) (addr : Socks5Addr) :
    handshake ⟨stream, []⟩ = .ok addr ⟨rest, written⟩ ↔
      Asks stream addr rest ∧ written = [0x05, 0x00] ++ replyBytes 0x00 := by
  rw [handshake_ok_iff]
  constructor
  · intro asked
    obtain ⟨methods, rsv, few, fits, unread, same⟩ := asked
    refine ⟨⟨rsv, addr.requestBytes, addressBytes_iff.mpr ⟨fits, rfl⟩, ?_⟩, same⟩
    exact beginsGreeting_iff.mpr ⟨methods, few, unread⟩
  · intro asked
    obtain ⟨⟨rsv, encoded, spelled, begins⟩, same⟩ := asked
    obtain ⟨fits, rfl⟩ := addressBytes_iff.mp spelled
    obtain ⟨methods, few, whole⟩ := beginsGreeting_iff.mp begins
    exact ⟨methods, rsv, few, fits, whole, same⟩

/-! ## What is refused, and how -/

theorem readU8_cons (byte : UInt8) (rest written : Bytes) :
    readU8 ⟨byte :: rest, written⟩ = .ok byte ⟨rest, written⟩ := rfl

/-- A command other than CONNECT is answered with 07. -/
theorem handshake_refuses_command {stream rest : Bytes} {cmd : UInt8} (other : cmd ≠ 0x01)
    (begins : BeginsGreeting stream (0x05 :: cmd :: rest)) :
    handshake ⟨stream, []⟩ =
      .error (.unsupportedCommand cmd) ⟨rest, [0x05, 0x00] ++ replyBytes 0x07⟩ := by
  have refused : connectRequest ⟨0x05 :: cmd :: rest, [0x05, 0x00]⟩ =
      .error (.unsupportedCommand cmd) ⟨rest, [0x05, 0x00] ++ replyBytes 0x07⟩ := by
    rw [connectRequest, bind_of_ok (readU8_cons ..)]
    rw [if_neg (not_not.mpr rfl), bind_of_ok (readU8_cons ..)]
    rw [if_pos other]
    rfl
  rw [handshake, bind_of_ok (greet_of_begins begins)]
  exact refused

/-- An address type outside the grammar is answered with 08. -/
theorem handshake_refuses_atyp {stream rest : Bytes} {rsv atyp : UInt8}
    (unknown : atyp ∉ knownAtyps)
    (begins : BeginsGreeting stream (0x05 :: 0x01 :: rsv :: atyp :: rest)) :
    handshake ⟨stream, []⟩ =
      .error (.unsupportedAddressType atyp) ⟨rest, [0x05, 0x00] ++ replyBytes 0x08⟩ := by
  simp only [knownAtyps, List.mem_cons, List.not_mem_nil, or_false, not_or] at unknown
  have unreadable : readAddress atyp ⟨rest, [0x05, 0x00]⟩ =
      .error (.unsupportedAddressType atyp) ⟨rest, [0x05, 0x00] ++ replyBytes 0x08⟩ := by
    rw [readAddress, if_neg unknown.1, if_neg unknown.2.1, if_neg unknown.2.2]
    rfl
  have refused : connectRequest ⟨0x05 :: 0x01 :: rsv :: atyp :: rest, [0x05, 0x00]⟩ =
      .error (.unsupportedAddressType atyp) ⟨rest, [0x05, 0x00] ++ replyBytes 0x08⟩ := by
    rw [connectRequest, bind_of_ok (readU8_cons ..)]
    rw [if_neg (not_not.mpr rfl), bind_of_ok (readU8_cons ..)]
    rw [if_neg (not_not.mpr rfl), bind_of_ok (readU8_cons ..)]
    rw [bind_of_ok (readU8_cons ..)]
    exact bind_of_error unreadable
  rw [handshake, bind_of_ok (greet_of_begins begins)]
  exact refused

/-- What a stopped handshake has written, and why. -/
theorem handshake_error_replies {stream : Bytes} {error : Socks5Error} {after : Sock}
    (stopped : handshake ⟨stream, []⟩ = .error error after) :
    after.written = [] ∨ after.written = [0x05, 0x00] ∨
      (after.written = [0x05, 0x00] ++ replyBytes 0x07 ∧
        ∃ cmd rest, cmd ≠ 0x01 ∧ BeginsGreeting stream (0x05 :: cmd :: rest)) ∨
      (after.written = [0x05, 0x00] ++ replyBytes 0x08 ∧
        ∃ rsv atyp rest, atyp ∉ knownAtyps ∧
          BeginsGreeting stream (0x05 :: 0x01 :: rsv :: atyp :: rest)) := by
  rcases (bind_error_iff ..).mp stopped with early | ⟨_, middle, greeted, refused⟩
  · exact Or.inl (greet_written early)
  obtain ⟨methods, few, whole, selected⟩ := (greet_ok_iff ..).mp greeted
  rw [List.nil_append] at selected
  have begins : BeginsGreeting stream middle.unread :=
    beginsGreeting_iff.mpr ⟨methods, few, whole⟩
  rcases connectRequest_stopped refused with same | ⟨cmd, rest, other, unread, replied⟩ |
    ⟨rsv, atyp, rest, unknown, unread, replied⟩
  · exact Or.inr (Or.inl (same.trans selected))
  · rw [unread] at begins
    rw [selected] at replied
    exact Or.inr (Or.inr (Or.inl ⟨replied, cmd, rest, other, begins⟩))
  · rw [unread] at begins
    rw [selected] at replied
    exact Or.inr (Or.inr (Or.inr ⟨replied, rsv, atyp, rest, unknown, begins⟩))

/-- The handshake returns an address exactly on its grammar, leaving the bytes
behind the request; on every other stream it stops, answering 07 and 08 exactly
for a foreign command and an unknown address type and never with success. -/
theorem handshake_accepts_exactly_grammar (stream : Bytes) :
    (∀ addr rest written, handshake ⟨stream, []⟩ = .ok addr ⟨rest, written⟩ ↔
      Asks stream addr rest ∧
        written = [0x05, 0x00] ++ [0x05, 0x00, 0x00, 0x01, 0, 0, 0, 0, 0, 0]) ∧
    ((∀ addr rest, ¬ Asks stream addr rest) →
      ∃ error after, handshake ⟨stream, []⟩ = .error error after) ∧
    ∀ error after, handshake ⟨stream, []⟩ = .error error after →
      (after.written = [] ∨ after.written = [0x05, 0x00] ∨
        ∃ status ∈ [0x07, 0x08], after.written = [0x05, 0x00] ++ replyBytes status) ∧
      (after.written = [0x05, 0x00] ++ replyBytes 0x07 ↔
        ∃ cmd rest, cmd ≠ 0x01 ∧ BeginsGreeting stream (0x05 :: cmd :: rest)) ∧
      (after.written = [0x05, 0x00] ++ replyBytes 0x08 ↔
        ∃ rsv atyp rest, atyp ∉ [0x01, 0x03, 0x04] ∧
          BeginsGreeting stream (0x05 :: 0x01 :: rsv :: atyp :: rest)) ∧
      ¬ replyBytes 0x00 <:+: after.written := by
  refine ⟨fun addr rest written => handshake_ok_iff_asks stream rest written addr, ?_, ?_⟩
  · intro foreign
    cases result : handshake ⟨stream, []⟩ with
    | ok addr after =>
        exact absurd ((handshake_ok_iff_asks stream _ _ addr).mp result).1 (foreign addr _)
    | error error after => exact ⟨error, after, rfl⟩
  · intro error after stopped
    have replies := handshake_error_replies stopped
    refine ⟨?_, ⟨?_, ?_⟩, ⟨?_, ?_⟩, ?_⟩
    · rcases replies with empty | selected | ⟨replied, _⟩ | ⟨replied, _⟩
      · exact Or.inl empty
      · exact Or.inr (Or.inl selected)
      · exact Or.inr (Or.inr ⟨0x07, by decide, replied⟩)
      · exact Or.inr (Or.inr ⟨0x08, by decide, replied⟩)
    · intro written
      rw [written] at replies
      rcases replies with empty | selected | ⟨_, foreign⟩ | ⟨same, _⟩
      · exact absurd empty (by decide)
      · exact absurd selected (by decide)
      · exact foreign
      · exact absurd same (by decide)
    · intro foreign
      obtain ⟨cmd, rest, other, begins⟩ := foreign
      have refused := handshake_refuses_command other begins
      rw [stopped] at refused
      cases refused
      rfl
    · intro written
      rw [written] at replies
      rcases replies with empty | selected | ⟨same, _⟩ | ⟨_, unknown⟩
      · exact absurd empty (by decide)
      · exact absurd selected (by decide)
      · exact absurd same (by decide)
      · exact unknown
    · intro foreign
      obtain ⟨rsv, atyp, rest, unknown, begins⟩ := foreign
      have refused := handshake_refuses_atyp unknown begins
      rw [stopped] at refused
      cases refused
      rfl
    · rcases replies with written | written | ⟨written, _⟩ | ⟨written, _⟩
      · rw [written]
        decide
      · rw [written]
        decide
      · rw [written]
        decide
      · rw [written]
        decide

end RealityHydra.HydraClient
