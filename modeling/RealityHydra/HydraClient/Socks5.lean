import RealityHydra.Lib.ByteSocket
import RealityHydra.TunnelProto.RoundTrip

/-!
# The SOCKS5 inbound

`handshake` as a program over the application's socket, with the address it
returns and every error it stops with, and the destinations that reach the exit
node through the tunnel header.
-/

set_option autoImplicit false

namespace RealityHydra.HydraClient

open RealityHydra.Lib.ByteCodec
open RealityHydra.Lib.ByteSocket
open RealityHydra.Primitives
open RealityHydra.TunnelProto

inductive Socks5Addr where
  | ipv4 (octets : Vector UInt8 4) (port : UInt16)
  | domain (name : String) (port : UInt16)
  | ipv6 (octets : Vector UInt8 16) (port : UInt16)
  deriving DecidableEq, Repr

inductive Socks5Error where
  | closed
  | unexpectedVersion (ver : UInt8)
  | requestVersion (ver : UInt8)
  | unsupportedCommand (cmd : UInt8)
  | badDomain (raw : Bytes)
  | unsupportedAddressType (atyp : UInt8)
  deriving DecidableEq, Repr

/-- The `String` the source returns, given the texts of the I/O error and of the
UTF-8 error, which the standard library chooses. -/
def Socks5Error.message (ioText : String) (utf8Text : Bytes → String) :
    Socks5Error → String
  | .closed => ioText
  | .unexpectedVersion ver => "SOCKS5: unexpected version " ++ toString ver
  | .requestVersion ver => "SOCKS5: request version " ++ toString ver
  | .unsupportedCommand cmd => "SOCKS5: unsupported command " ++ toString cmd
  | .badDomain raw => "SOCKS5: bad domain: " ++ utf8Text raw
  | .unsupportedAddressType atyp =>
      "SOCKS5: unsupported address type " ++ toString atyp

def readU8 : SockM Socks5Error UInt8 := readByte .closed

def readU16 : SockM Socks5Error UInt16 := do
  let bytes ← readExact .closed 2
  pure (UInt16.ofNat (beValue bytes))

def readArray (n : Nat) : SockM Socks5Error (Vector UInt8 n) := do
  let bytes ← readExact .closed n
  pure (copyArray n bytes 0)

/-- `VER=5, REP=status, RSV=0, ATYP=1`, address `0.0.0.0:0`. -/
def replyBytes (status : UInt8) : Bytes :=
  [0x05, status, 0x00, 0x01, 0, 0, 0, 0, 0, 0]

def sendReply (status : UInt8) : SockM Socks5Error Unit :=
  writeAll (replyBytes status)

/-- The `match atyp` of the handshake. -/
def readAddress (atyp : UInt8) : SockM Socks5Error Socks5Addr :=
  if atyp = 0x01 then do
    let buf ← readArray 4
    let port ← readU16
    pure (.ipv4 buf port)
  else if atyp = 0x03 then do
    let len ← readU8
    let buf ← readExact .closed len.toNat
    match fromUtf8 buf with
    | none => fail (.badDomain buf)
    | some domain => do
        let port ← readU16
        pure (.domain domain port)
  else if atyp = 0x04 then do
    let buf ← readArray 16
    let port ← readU16
    pure (.ipv6 buf port)
  else do
    sendReply 0x08
    fail (.unsupportedAddressType atyp)

def greet : SockM Socks5Error Unit := do
  let ver ← readU8
  if ver ≠ 0x05 then fail (.unexpectedVersion ver) else do
    let nmethods ← readU8
    let _methods ← readExact .closed nmethods.toNat
    writeAll [0x05, 0x00]

/-- The CONNECT request.  Its success reply precedes any contact with the exit
node. -/
def connectRequest : SockM Socks5Error Socks5Addr := do
  let ver ← readU8
  if ver ≠ 0x05 then fail (.requestVersion ver) else do
    let cmd ← readU8
    if cmd ≠ 0x01 then do
      sendReply 0x07
      fail (.unsupportedCommand cmd)
    else do
      let _rsv ← readU8
      let atyp ← readU8
      let addr ← readAddress atyp
      sendReply 0x00
      pure addr

def handshake : SockM Socks5Error Socks5Addr := do
  greet
  connectRequest

/-! ## What the handshake returns -/

/-- The `ATYP || body || port` bytes an address is read from. -/
def Socks5Addr.requestBytes : Socks5Addr → Bytes
  | .ipv4 octets port => 0x01 :: (octets.toList ++ beBytes 2 port.toNat)
  | .domain name port =>
      0x03 :: UInt8.ofNat (utf8Bytes name).length ::
        (utf8Bytes name ++ beBytes 2 port.toNat)
  | .ipv6 octets port => 0x04 :: (octets.toList ++ beBytes 2 port.toNat)

def Socks5Addr.LengthFits : Socks5Addr → Prop
  | .domain name _ => (utf8Bytes name).length ≤ 255
  | _ => True

theorem readU16_ok_iff (before after : Sock) (port : UInt16) :
    readU16 before = .ok port after ↔
      before.unread = beBytes 2 port.toNat ++ after.unread ∧
        after.written = before.written := by
  simp only [readU16, bind_ok_iff, pure_ok_iff, readExact_ok_iff]
  constructor
  · rintro ⟨bytes, middle, ⟨length, unread, written⟩, rfl, rfl⟩
    exact ⟨by rw [unread, beBytes_ofNat_beValue bytes length], written⟩
  · rintro ⟨unread, written⟩
    refine ⟨beBytes 2 port.toNat, after, ⟨by simp, unread, written⟩, ?_, rfl⟩
    rw [beValue_beBytes 2 port.toNat port.toNat_lt, UInt16.ofNat_toNat]

theorem readArray_ok_iff (n : Nat) (before after : Sock)
    (octets : Vector UInt8 n) :
    readArray n before = .ok octets after ↔
      before.unread = octets.toList ++ after.unread ∧
        after.written = before.written := by
  simp only [readArray, bind_ok_iff, pure_ok_iff, readExact_ok_iff]
  constructor
  · rintro ⟨bytes, middle, ⟨length, unread, written⟩, rfl, rfl⟩
    refine ⟨?_, written⟩
    rw [unread, copyArray_toList n bytes 0 (by omega), slice_zero,
      List.take_of_length_le (by omega)]
  · rintro ⟨unread, written⟩
    refine ⟨octets.toList, after, ⟨Vector.length_toList, unread, written⟩, ?_, rfl⟩
    simpa using copyArray_append [] [] octets 0 rfl

theorem lengthByte_toNat {length : Nat} (fits : length ≤ 255) :
    (UInt8.ofNat length).toNat = length :=
  UInt8.toNat_ofNat_of_lt' (by simp only [UInt8.size]; omega)

theorem readAddress_sound (atyp : UInt8) (before after : Sock)
    (addr : Socks5Addr) (success : readAddress atyp before = .ok addr after) :
    addr.LengthFits ∧
      atyp :: before.unread = addr.requestBytes ++ after.unread ∧
      after.written = before.written := by
  unfold readAddress at success
  split at success
  · rename_i isV4
    simp only [bind_ok_iff, pure_ok_iff, readArray_ok_iff, readU16_ok_iff] at success
    obtain ⟨octets, middle, ⟨body, kept⟩, port, last, ⟨tail, same⟩, rfl, rfl⟩ := success
    refine ⟨trivial, ?_, same.trans kept⟩
    simp [Socks5Addr.requestBytes, isV4, body, tail]
  split at success
  · rename_i isDomain
    simp only [bind_ok_iff, readU8, readByte_ok_iff, readExact_ok_iff] at success
    obtain ⟨len, afterLen, ⟨lenRead, keptLen⟩, raw, afterRaw,
      ⟨rawLength, rawRead, keptRaw⟩, success⟩ := success
    cases decoded : fromUtf8 raw with
    | none =>
        rw [decoded] at success
        exact ((fail_ok_iff ..).mp success).elim
    | some name =>
        rw [decoded] at success
        simp only [bind_ok_iff, pure_ok_iff, readU16_ok_iff] at success
        obtain ⟨port, last, ⟨tail, same⟩, rfl, rfl⟩ := success
        have stored := utf8Bytes_of_fromUtf8 decoded
        have lengthExact : (utf8Bytes name).length = len.toNat := by
          rw [stored, rawLength]
        have lenBound : len.toNat < 256 := len.toNat_lt
        refine ⟨?_, ?_, same.trans (keptRaw.trans keptLen)⟩
        · simp only [Socks5Addr.LengthFits]
          omega
        · simp [Socks5Addr.requestBytes, isDomain, lenRead, rawRead, tail,
            rawLength, stored]
  split at success
  · rename_i isV6
    simp only [bind_ok_iff, pure_ok_iff, readArray_ok_iff, readU16_ok_iff] at success
    obtain ⟨octets, middle, ⟨body, kept⟩, port, last, ⟨tail, same⟩, rfl, rfl⟩ := success
    refine ⟨trivial, ?_, same.trans kept⟩
    simp [Socks5Addr.requestBytes, isV6, body, tail]
  · simp [bind_ok_iff, fail_ok_iff] at success

theorem readAddress_complete (atyp : UInt8) (before after : Sock)
    (addr : Socks5Addr) (fits : addr.LengthFits)
    (unread : atyp :: before.unread = addr.requestBytes ++ after.unread)
    (written : after.written = before.written) :
    readAddress atyp before = .ok addr after := by
  cases addr with
  | ipv4 octets port =>
      simp only [Socks5Addr.requestBytes, List.cons_append, List.cons.injEq,
        List.append_assoc] at unread
      obtain ⟨rfl, body⟩ := unread
      rw [readAddress, if_pos rfl]
      simp only [bind_ok_iff, pure_ok_iff, readArray_ok_iff, readU16_ok_iff]
      exact ⟨octets, ⟨beBytes 2 port.toNat ++ after.unread, before.written⟩,
        ⟨body, rfl⟩, port, after, ⟨rfl, written⟩, rfl, rfl⟩
  | domain name port =>
      simp only [Socks5Addr.requestBytes, List.cons_append, List.cons.injEq,
        List.append_assoc] at unread
      obtain ⟨rfl, body⟩ := unread
      have lengthExact := lengthByte_toNat fits
      rw [readAddress, if_neg (by decide), if_pos rfl]
      simp only [bind_ok_iff, readU8, readByte_ok_iff, readExact_ok_iff]
      refine ⟨UInt8.ofNat (utf8Bytes name).length,
        ⟨utf8Bytes name ++ (beBytes 2 port.toNat ++ after.unread), before.written⟩,
        ⟨body, rfl⟩, utf8Bytes name,
        ⟨beBytes 2 port.toNat ++ after.unread, before.written⟩,
        ⟨lengthExact.symm, rfl, rfl⟩, ?_⟩
      rw [fromUtf8_utf8Bytes]
      simp only [bind_ok_iff, pure_ok_iff, readU16_ok_iff]
      exact ⟨port, after, ⟨rfl, written⟩, rfl, rfl⟩
  | ipv6 octets port =>
      simp only [Socks5Addr.requestBytes, List.cons_append, List.cons.injEq,
        List.append_assoc] at unread
      obtain ⟨rfl, body⟩ := unread
      rw [readAddress, if_neg (by decide), if_neg (by decide), if_pos rfl]
      simp only [bind_ok_iff, pure_ok_iff, readArray_ok_iff, readU16_ok_iff]
      exact ⟨octets, ⟨beBytes 2 port.toNat ++ after.unread, before.written⟩,
        ⟨body, rfl⟩, port, after, ⟨rfl, written⟩, rfl, rfl⟩

theorem greet_ok_iff (before after : Sock) (done : Unit) :
    greet before = .ok done after ↔
      ∃ methods : Bytes, methods.length ≤ 255 ∧
        before.unread =
          0x05 :: UInt8.ofNat methods.length :: (methods ++ after.unread) ∧
        after.written = before.written ++ [0x05, 0x00] := by
  simp only [greet, readU8, bind_ok_iff, readByte_ok_iff]
  constructor
  · rintro ⟨ver, afterVer, ⟨verRead, keptVer⟩, success⟩
    split at success
    · exact ((fail_ok_iff ..).mp success).elim
    rename_i rightVer
    simp only [bind_ok_iff, readByte_ok_iff, readExact_ok_iff,
      writeAll_ok_iff] at success
    obtain ⟨count, afterCount, ⟨countRead, keptCount⟩, methods, afterMethods,
      ⟨methodsLength, methodsRead, keptMethods⟩, unread, written⟩ := success
    have countBound : count.toNat < 256 := count.toNat_lt
    refine ⟨methods, by omega, ?_, ?_⟩
    · rw [verRead, countRead, methodsRead, unread, methodsLength,
        UInt8.ofNat_toNat, not_not.mp rightVer]
    · rw [written, keptMethods, keptCount, keptVer]
  · rintro ⟨methods, fits, unread, written⟩
    refine ⟨0x05, ⟨UInt8.ofNat methods.length :: (methods ++ after.unread),
      before.written⟩, ⟨unread, rfl⟩, ?_⟩
    rw [if_neg (by simp)]
    simp only [bind_ok_iff, readByte_ok_iff, readExact_ok_iff, writeAll_ok_iff]
    exact ⟨UInt8.ofNat methods.length, ⟨methods ++ after.unread, before.written⟩,
      ⟨rfl, rfl⟩, methods, ⟨after.unread, before.written⟩,
      ⟨(lengthByte_toNat fits).symm, rfl, rfl⟩, rfl, written⟩

theorem connectRequest_ok_iff (before after : Sock) (addr : Socks5Addr) :
    connectRequest before = .ok addr after ↔
      ∃ rsv, addr.LengthFits ∧
        before.unread =
          0x05 :: 0x01 :: rsv :: (addr.requestBytes ++ after.unread) ∧
        after.written = before.written ++ replyBytes 0x00 := by
  simp only [connectRequest, readU8, sendReply, bind_ok_iff, readByte_ok_iff]
  constructor
  · rintro ⟨ver, afterVer, ⟨verRead, keptVer⟩, success⟩
    split at success
    · exact ((fail_ok_iff ..).mp success).elim
    rename_i rightVer
    simp only [bind_ok_iff, readByte_ok_iff] at success
    obtain ⟨cmd, afterCmd, ⟨cmdRead, keptCmd⟩, success⟩ := success
    split at success
    · simp [bind_ok_iff, fail_ok_iff] at success
    rename_i rightCmd
    simp only [bind_ok_iff, readByte_ok_iff, writeAll_ok_iff,
      pure_ok_iff] at success
    obtain ⟨rsv, afterRsv, ⟨rsvRead, keptRsv⟩, atyp, afterAtyp,
      ⟨atypRead, keptAtyp⟩, parsed, afterAddr, parsedOk, _, last,
      ⟨unread, written⟩, rfl, rfl⟩ := success
    obtain ⟨fits, addrRead, keptAddr⟩ :=
      readAddress_sound atyp afterAtyp afterAddr parsed parsedOk
    refine ⟨rsv, fits, ?_, ?_⟩
    · rw [verRead, cmdRead, rsvRead, atypRead, addrRead, unread,
        not_not.mp rightVer, not_not.mp rightCmd]
    · rw [written, keptAddr, keptAtyp, keptRsv, keptCmd, keptVer]
  · rintro ⟨rsv, fits, unread, written⟩
    obtain ⟨atyp, body, split⟩ : ∃ atyp body,
        addr.requestBytes ++ after.unread = atyp :: body := by
      cases addr <;> exact ⟨_, _, rfl⟩
    have parsed := readAddress_complete atyp ⟨body, before.written⟩
      ⟨after.unread, before.written⟩ addr fits split.symm rfl
    refine ⟨0x05, ⟨0x01 :: rsv :: atyp :: body, before.written⟩,
      ⟨by rw [unread, split], rfl⟩, ?_⟩
    rw [if_neg (by simp)]
    simp only [bind_ok_iff, readByte_ok_iff]
    refine ⟨0x01, ⟨rsv :: atyp :: body, before.written⟩, ⟨rfl, rfl⟩, ?_⟩
    rw [if_neg (by simp)]
    simp only [bind_ok_iff, readByte_ok_iff, writeAll_ok_iff, pure_ok_iff]
    exact ⟨rsv, ⟨atyp :: body, before.written⟩, ⟨rfl, rfl⟩, atyp,
      ⟨body, before.written⟩, ⟨rfl, rfl⟩, addr,
      ⟨after.unread, before.written⟩, parsed, (), after, ⟨rfl, written⟩,
      rfl, rfl⟩

theorem handshake_ok_iff (before after : Sock) (addr : Socks5Addr) :
    handshake before = .ok addr after ↔
      ∃ (methods : Bytes) (rsv : UInt8),
        methods.length ≤ 255 ∧ addr.LengthFits ∧
        before.unread =
          0x05 :: UInt8.ofNat methods.length :: (methods ++
            (0x05 :: 0x01 :: rsv :: (addr.requestBytes ++ after.unread))) ∧
        after.written = before.written ++ [0x05, 0x00] ++ replyBytes 0x00 := by
  simp only [handshake, bind_ok_iff, greet_ok_iff, connectRequest_ok_iff]
  constructor
  · rintro ⟨_, middle, ⟨methods, few, greeting, greeted⟩, rsv, fits, request,
      replied⟩
    exact ⟨methods, rsv, few, fits, by rw [greeting, request],
      by rw [replied, greeted]⟩
  · rintro ⟨methods, rsv, few, fits, unread, written⟩
    exact ⟨(), ⟨0x05 :: 0x01 :: rsv :: (addr.requestBytes ++ after.unread),
      before.written ++ [0x05, 0x00]⟩, ⟨methods, few, unread, rfl⟩, rsv, fits,
      rfl, written⟩

theorem handshake_returns_iff (addr : Socks5Addr) :
    (∃ before after, handshake before = .ok addr after) ↔ addr.LengthFits := by
  constructor
  · rintro ⟨before, after, success⟩
    obtain ⟨_, _, _, fits, _⟩ := (handshake_ok_iff before after addr).mp success
    exact fits
  · intro fits
    refine ⟨⟨0x05 :: 0x00 :: 0x05 :: 0x01 :: 0x00 :: addr.requestBytes, []⟩,
      ⟨[], [0x05, 0x00] ++ replyBytes 0x00⟩, ?_⟩
    exact (handshake_ok_iff _ _ addr).mpr
      ⟨[], 0x00, by simp, fits, by simp, by simp⟩

/-! ## What the handshake has written when it stops -/

theorem reads_readU8 : Reads readU8 := Reads.readByte Socks5Error.closed

theorem reads_readU16 : Reads readU16 :=
  (Reads.readExact Socks5Error.closed 2).bind fun _ => Reads.pure _

theorem reads_readArray (n : Nat) : Reads (readArray n) :=
  (Reads.readExact Socks5Error.closed n).bind fun _ => Reads.pure _

/-- The address types of the request grammar. -/
def knownAtyps : List UInt8 := [0x01, 0x03, 0x04]

theorem readAddress_stopped {atyp : UInt8} {before after : Sock} {error : Socks5Error}
    (stopped : readAddress atyp before = .error error after) :
    after.written = before.written ∨
      atyp ∉ knownAtyps ∧ after.written = before.written ++ replyBytes 0x08 := by
  unfold readAddress at stopped
  split at stopped
  · have reads : Reads (readArray 4 >>= fun buf => readU16 >>= fun port =>
        pure (Socks5Addr.ipv4 buf port)) :=
      (reads_readArray 4).bind fun _ => reads_readU16.bind fun _ => Reads.pure _
    exact Or.inl (reads.error _ _ _ stopped)
  rename_i notV4
  split at stopped
  · refine Or.inl (Reads.error ?_ _ _ _ stopped)
    refine reads_readU8.bind fun len => (Reads.readExact _ _).bind fun buf => ?_
    cases fromUtf8 buf with
    | none => exact Reads.fail _
    | some domain => exact reads_readU16.bind fun _ => Reads.pure _
  rename_i notDomain
  split at stopped
  · have reads : Reads (readArray 16 >>= fun buf => readU16 >>= fun port =>
        pure (Socks5Addr.ipv6 buf port)) :=
      (reads_readArray 16).bind fun _ => reads_readU16.bind fun _ => Reads.pure _
    exact Or.inl (reads.error _ _ _ stopped)
  rename_i notV6
  rw [sendReply, bind_error_iff, writeAll_error_iff] at stopped
  rcases stopped with impossible | ⟨_, middle, replied, failed⟩
  · exact impossible.elim
  · rw [fail_error_iff] at failed
    rw [← failed.2]
    refine Or.inr ⟨?_, ((writeAll_ok_iff ..).mp replied).2⟩
    simp [knownAtyps, notV4, notDomain, notV6]

theorem greet_written {before after : Sock} {error : Socks5Error}
    (stopped : greet before = .error error after) : after.written = before.written := by
  unfold greet at stopped
  rcases (bind_error_iff ..).mp stopped with early | ⟨ver, afterVer, read, rest⟩
  · exact reads_readU8.error _ _ _ early
  have kept := reads_readU8.ok _ _ _ read
  split at rest
  · exact ((Reads.fail _).error _ _ _ rest).trans kept
  rcases (bind_error_iff ..).mp rest with early | ⟨count, afterCount, counted, rest⟩
  · exact (reads_readU8.error _ _ _ early).trans kept
  have kept := (reads_readU8.ok _ _ _ counted).trans kept
  rcases (bind_error_iff ..).mp rest with early | ⟨methods, afterMethods, listed, rest⟩
  · exact ((Reads.readExact _ _).error _ _ _ early).trans kept
  · exact ((writeAll_error_iff ..).mp rest).elim

/-- A request that stops is answered only for its command or its address type. -/
theorem connectRequest_stopped {before after : Sock} {error : Socks5Error}
    (stopped : connectRequest before = .error error after) :
    after.written = before.written ∨
      (∃ cmd rest, cmd ≠ 0x01 ∧ before.unread = 0x05 :: cmd :: rest ∧
        after.written = before.written ++ replyBytes 0x07) ∨
      ∃ rsv atyp rest, atyp ∉ knownAtyps ∧
        before.unread = 0x05 :: 0x01 :: rsv :: atyp :: rest ∧
        after.written = before.written ++ replyBytes 0x08 := by
  unfold connectRequest at stopped
  rcases (bind_error_iff ..).mp stopped with early | ⟨ver, afterVer, read, rest⟩
  · exact Or.inl (reads_readU8.error _ _ _ early)
  obtain ⟨verRead, kept⟩ := (readByte_ok_iff ..).mp read
  split at rest
  · exact Or.inl (((Reads.fail _).error _ _ _ rest).trans kept)
  rename_i rightVer
  rw [not_not.mp rightVer] at verRead
  rcases (bind_error_iff ..).mp rest with early | ⟨cmd, afterCmd, read, rest⟩
  · exact Or.inl ((reads_readU8.error _ _ _ early).trans kept)
  obtain ⟨cmdRead, same⟩ := (readByte_ok_iff ..).mp read
  have kept := same.trans kept
  split at rest
  · rename_i otherCmd
    rcases (bind_error_iff ..).mp rest with early | ⟨_, middle, replied, failed⟩
    · exact ((writeAll_error_iff ..).mp early).elim
    · refine Or.inr (Or.inl ⟨cmd, afterCmd.unread, otherCmd, ?_, ?_⟩)
      · rw [verRead, cmdRead]
      · have written := ((writeAll_ok_iff ..).mp replied).2
        rw [(Reads.fail _).error _ _ _ failed, written, kept]
  rename_i rightCmd
  rw [not_not.mp rightCmd] at cmdRead
  rcases (bind_error_iff ..).mp rest with early | ⟨rsv, afterRsv, read, rest⟩
  · exact Or.inl ((reads_readU8.error _ _ _ early).trans kept)
  obtain ⟨rsvRead, same⟩ := (readByte_ok_iff ..).mp read
  have kept := same.trans kept
  rcases (bind_error_iff ..).mp rest with early | ⟨atyp, afterAtyp, read, rest⟩
  · exact Or.inl ((reads_readU8.error _ _ _ early).trans kept)
  obtain ⟨atypRead, same⟩ := (readByte_ok_iff ..).mp read
  have kept := same.trans kept
  rcases (bind_error_iff ..).mp rest with early | ⟨addr, afterAddr, read, rest⟩
  · rcases readAddress_stopped early with same | ⟨unknown, refused⟩
    · exact Or.inl (same.trans kept)
    · refine Or.inr (Or.inr ⟨rsv, atyp, afterAtyp.unread, unknown, ?_, ?_⟩)
      · rw [verRead, cmdRead, rsvRead, atypRead]
      · rw [refused, kept]
  rcases (bind_error_iff ..).mp rest with early | ⟨_, middle, replied, returned⟩
  · exact ((writeAll_error_iff ..).mp early).elim
  · exact ((pure_error_iff ..).mp returned).elim

theorem connectRequest_written {before after : Sock} {error : Socks5Error}
    (stopped : connectRequest before = .error error after) :
    after.written = before.written ∨
      ∃ status, status ≠ 0x00 ∧ after.written = before.written ++ replyBytes status := by
  rcases connectRequest_stopped stopped with same | ⟨_, _, _, _, refused⟩ |
    ⟨_, _, _, _, _, refused⟩
  · exact Or.inl same
  · exact Or.inr ⟨0x07, by decide, refused⟩
  · exact Or.inr ⟨0x08, by decide, refused⟩

/-- A handshake that stops has not sent a success reply. -/
theorem handshake_written {before after : Sock} {error : Socks5Error}
    (stopped : handshake before = .error error after) :
    (∃ early, greet before = .error early after) ∧ after.written = before.written ∨
      ∃ middle, greet before = .ok () middle ∧
        (after.written = before.written ++ [0x05, 0x00] ∨
          ∃ status, status ≠ 0x00 ∧
            after.written = before.written ++ [0x05, 0x00] ++ replyBytes status) := by
  rcases (bind_error_iff ..).mp stopped with early | ⟨_, middle, greeted, refused⟩
  · exact Or.inl ⟨⟨error, early⟩, greet_written early⟩
  · obtain ⟨_, _, _, selected⟩ := (greet_ok_iff ..).mp greeted
    refine Or.inr ⟨middle, greeted, ?_⟩
    rw [← selected]
    exact connectRequest_written refused

/-! ## From the handshake to the exit node -/

def socksToTarget : Socks5Addr → Target
  | .ipv4 a p => ⟨.v4 a, p⟩
  | .domain d p => ⟨.domain d, p⟩
  | .ipv6 a p => ⟨.v6 a, p⟩

/-- The three length limits together: what the handshake returns is accepted
unchanged by the exit node up to domains of 253 bytes, and a domain of 254 or
255 bytes is refused. -/
theorem destination_reaches_exit_node (hmac : HmacSha256) (key : Bytes)
    (timestamp now maxSkew : UInt64) (addr : Socks5Addr)
    (returned : ∃ before after, handshake before = .ok addr after)
    (skew : |(now.toNat : Int) - timestamp.toNat| ≤ maxSkew.toNat) :
    ((∀ name port, addr = .domain name port → (utf8Bytes name).length ≤ 253) →
      ∃ p, parseRequest hmac
          (encodeRequest hmac key timestamp (socksToTarget addr)) key now
          maxSkew = .ok p ∧ p.target = socksToTarget addr) ∧
    (∀ name port, addr = .domain name port → 253 < (utf8Bytes name).length →
      parseRequest hmac
          (encodeRequest hmac key timestamp (socksToTarget addr)) key now
          maxSkew = .error (.domainTooLong (utf8Bytes name).length)) := by
  have announced := (handshake_returns_iff addr).mp returned
  constructor
  · intro short
    have fits : (socksToTarget addr).DomainFits := by
      intro name isDomain
      cases addr with
      | domain d port =>
          cases Host.domain.inj isDomain
          exact short _ port rfl
      | ipv4 octets port => contradiction
      | ipv6 octets port => contradiction
    have parsed := parseRequest_complete hmac key [] timestamp now maxSkew
      (socksToTarget addr) fits
    rw [List.append_nil] at parsed
    refine ⟨_, parsed.trans ((checkFresh_ok_iff now maxSkew _ _).mpr
      ⟨rfl, skew⟩), rfl⟩
  · intro name port isDomain long
    subst isDomain
    have lengthExact := lengthByte_toNat announced
    have refused := parseRequest_domainTooLong hmac key
      (utf8Bytes name ++ (beBytes 2 port.toNat ++
        (mac hmac key (signedBytes timestamp ⟨.domain name, port⟩)).toList))
      timestamp now maxSkew (UInt8.ofNat (utf8Bytes name).length)
      (by rw [lengthExact]; exact long)
    rw [lengthExact] at refused
    rw [← refused]
    congr 1
    rw [encodeRequest, socksToTarget, signedBytes_eq]
    simp [Host.addrBytes]

theorem destination_reaches_exit_node_ipv4 :
    ∃ p, parseRequest (fun _ _ => Vector.replicate 32 0)
      (encodeRequest (fun _ _ => Vector.replicate 32 0) [7] 1000
        (socksToTarget (.ipv4 #v[1, 2, 3, 4] 80))) [7] 1060 120 = .ok p ∧
      p.target = socksToTarget (.ipv4 #v[1, 2, 3, 4] 80) :=
  (destination_reaches_exit_node (fun _ _ => Vector.replicate 32 0) [7] 1000
    1060 120 (.ipv4 #v[1, 2, 3, 4] 80)
    ((handshake_returns_iff _).mpr trivial) (by decide)).1
    (by intro name port same; contradiction)

def longName (length : Nat) : String := String.ofList (List.replicate length 'a')

theorem longName_length (length : Nat) :
    (utf8Bytes (longName length)).length = length := by
  have oneByte : String.utf8EncodeChar 'a' = [97] := by decide
  simp [longName, utf8Bytes, List.utf8Encode, List.flatMap_replicate, oneByte]

/-- The handshake returns a domain of 254 bytes that the exit node refuses even
with equal clocks. -/
theorem long_domain_never_reaches_exit_node :
    ¬ ∀ (hmac : HmacSha256) (key : Bytes) (timestamp now maxSkew : UInt64)
        (addr : Socks5Addr),
      (∃ before after, handshake before = .ok addr after) →
      |(now.toNat : Int) - timestamp.toNat| ≤ maxSkew.toNat →
      ∃ p, parseRequest hmac
        (encodeRequest hmac key timestamp (socksToTarget addr)) key now
        maxSkew = .ok p ∧ p.target = socksToTarget addr := by
  intro claimed
  have returned : ∃ before after,
      handshake before = .ok (.domain (longName 254) 443) after := by
    apply (handshake_returns_iff _).mpr
    simp [Socks5Addr.LengthFits, longName_length]
  obtain ⟨p, parsed, targetExact⟩ := claimed
    (fun _ _ => Vector.replicate 32 0) [7] 1000 1000 120
    (.domain (longName 254) 443) returned (by decide)
  obtain ⟨_, _, fits, _⟩ := parseRequest_sound _ _ _ _ _ p parsed
  rw [targetExact] at fits
  have short := fits (longName 254) rfl
  rw [longName_length] at short
  simp [maxDomainLen] at short

end RealityHydra.HydraClient
