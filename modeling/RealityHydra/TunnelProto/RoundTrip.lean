import RealityHydra.TunnelProto.Parser

/-!
# The parser accepts exactly what the encoder produces

Decode-after-encode and encode-after-decode of a CONNECT header, for every
address shape, followed by any trailing bytes.
-/

set_option autoImplicit false

namespace RealityHydra.TunnelProto

open RealityHydra.Lib.ByteCodec
open RealityHydra.Primitives

theorem need_ok {held want : Nat} (passed : need held want = .ok ()) :
    want ≤ held := by
  unfold need at passed
  split at passed
  · contradiction
  · omega

/-! ## Encode after decode -/

theorem bind_ok {ε α β : Type} {first : Except ε α} {next : α → Except ε β}
    {result : β} (success : (first >>= next) = .ok result) :
    ∃ value, first = .ok value ∧ next value = .ok result := by
  cases first with
  | error rejected => contradiction
  | ok value => exact ⟨value, rfl, success⟩

theorem parseHost_sound (buf : Bytes) (atyp : UInt8) (cursor : Nat)
    (host : Host) (stop : Nat)
    (success : parseHost buf atyp cursor = .ok (host, stop)) :
    cursor ≤ stop ∧ stop ≤ buf.length ∧
      atyp :: slice buf cursor stop = host.addrBytes ∧
      ∀ d, host = .domain d → (utf8Bytes d).length ≤ maxDomainLen := by
  unfold parseHost at success
  split at success
  · rename_i isV4
    obtain ⟨_, enough, result⟩ := bind_ok success
    have inside := need_ok enough
    cases Except.ok.inj result
    refine ⟨by omega, inside, ?_, by intro d same; contradiction⟩
    rw [Host.addrBytes, copyArray_toList 4 buf cursor inside, isV4]
  split at success
  · rename_i isDomain
    obtain ⟨_, enough, success⟩ := bind_ok success
    have lengthInside := need_ok enough
    dsimp only at success
    split at success
    · contradiction
    rename_i fits
    obtain ⟨_, enough, success⟩ := bind_ok success
    have nameInside := need_ok enough
    split at success
    · contradiction
    rename_i d decoded
    cases Except.ok.inj success
    have stored := utf8Bytes_of_fromUtf8 decoded
    have nameLength : (utf8Bytes d).length = (byteAt buf cursor).toNat := by
      rw [stored, slice_length buf _ _ nameInside]
      omega
    refine ⟨by omega, nameInside, ?_, ?_⟩
    · rw [slice_eq_byte_cons buf (by omega) (by omega), Host.addrBytes,
        nameLength, UInt8.ofNat_toNat, stored, isDomain]
    · intro name same
      cases Host.domain.inj same
      rw [nameLength]
      exact Nat.not_lt.mp fits
  split at success
  · rename_i isV6
    obtain ⟨_, enough, result⟩ := bind_ok success
    have inside := need_ok enough
    cases Except.ok.inj result
    refine ⟨by omega, inside, ?_, by intro d same; contradiction⟩
    rw [Host.addrBytes, copyArray_toList 16 buf cursor inside, isV6]
  · contradiction

theorem verifyMac_ok {hmac : HmacSha256} {key signed tag : Bytes}
    (verified : verifyMac hmac key signed tag = .ok ()) :
    tag = (mac hmac key signed).toList := by
  unfold verifyMac at verified
  split at verified
  · rename_i same
    exact same.symm
  · contradiction

theorem checkFresh_ok_iff (now maxSkew : UInt64)
    (request result : ParsedRequest) :
    checkFresh now maxSkew request = .ok result ↔
      request = result ∧
        |(now.toNat : Int) - request.timestamp.toNat| ≤ maxSkew.toNat := by
  unfold checkFresh
  have skew := absDiff_toNat now request.timestamp
  split
  · rename_i exceeded
    have larger := UInt64.lt_iff_toNat_lt.mp exceeded
    constructor
    · intro impossible
      contradiction
    · rintro ⟨_, small⟩
      omega
  · rename_i within
    have smaller : (absDiff now request.timestamp).toNat ≤ maxSkew.toNat :=
      Nat.not_lt.mp fun larger => within (UInt64.lt_iff_toNat_lt.mpr larger)
    constructor
    · intro same
      exact ⟨Except.ok.inj same, by omega⟩
    · rintro ⟨same, _⟩
      rw [same]

theorem leBytes_timestamp (bytes : Bytes) (width : bytes.length = 8) :
    leBytes 8 (UInt64.ofNat (leValue bytes)).toNat = bytes := by
  have bounded : leValue bytes < 2 ^ 64 := by
    have small := leValue_lt bytes
    rw [width] at small
    omega
  rw [UInt64.toNat_ofNat_of_lt' bounded]
  simpa only [width] using leBytes_leValue bytes

theorem take_eq_signedBytes (buf : Bytes) (host : Host) (cursor : Nat)
    (atStart : byteAt buf 0 = version) (lower : 10 ≤ cursor)
    (inside : cursor + 2 ≤ buf.length)
    (hostBytes : byteAt buf 9 :: slice buf 10 cursor = host.addrBytes) :
    buf.take (cursor + 2) =
      signedBytes (UInt64.ofNat (leValue (slice buf 1 9)))
        { host, port := UInt16.ofNat (beValue (slice buf cursor (cursor + 2))) } := by
  rw [signedBytes_eq, leBytes_timestamp _ (slice_length buf 1 9 (by omega)),
    beBytes_ofNat_beValue _ (by rw [slice_length buf _ _ inside]; omega)]
  rw [← hostBytes, ← atStart, ← slice_zero,
    slice_eq_byte_cons buf (by omega : 0 < buf.length) (by omega),
    slice_split buf (by omega : 0 + 1 ≤ 9) (by omega : 9 ≤ cursor + 2),
    slice_eq_byte_cons buf (by omega : 9 < buf.length) (by omega),
    slice_split buf (by omega : 9 + 1 ≤ cursor) (by omega : cursor ≤ cursor + 2)]
  simp

theorem parseRequest_sound (hmac : HmacSha256) (buf key : Bytes)
    (now maxSkew : UInt64) (p : ParsedRequest)
    (success : parseRequest hmac buf key now maxSkew = .ok p) :
    (∃ rest, buf = encodeRequest hmac key p.timestamp p.target ++ rest) ∧
      p.consumed = (encodeRequest hmac key p.timestamp p.target).length ∧
      p.target.DomainFits ∧
      |(now.toNat : Int) - p.timestamp.toNat| ≤ maxSkew.toNat := by
  unfold parseRequest at success
  obtain ⟨_, headEnough, success⟩ := bind_ok success
  have headInside := need_ok headEnough
  split at success
  · contradiction
  rename_i rightVersion
  obtain ⟨⟨host, cursor⟩, hostParsed, success⟩ := bind_ok success
  obtain ⟨_, _, success⟩ := bind_ok success
  obtain ⟨_, macEnough, success⟩ := bind_ok success
  have macInside := need_ok macEnough
  obtain ⟨_, verified, fresh⟩ := bind_ok success
  obtain ⟨lower, _, hostBytes, fits⟩ :=
    parseHost_sound buf (byteAt buf 9) 10 host cursor hostParsed
  obtain ⟨requestExact, skew⟩ := (checkFresh_ok_iff now maxSkew _ p).mp fresh
  subst requestExact
  have signedExact := take_eq_signedBytes buf host cursor
    (not_not.mp rightVersion) lower (by omega) hostBytes
  have tagExact := verifyMac_ok verified
  have wholeExact : buf.take (cursor + 2 + macLen) =
      encodeRequest hmac key (UInt64.ofNat (leValue (slice buf 1 9)))
        { host, port := UInt16.ofNat (beValue (slice buf cursor (cursor + 2))) } := by
    rw [← slice_zero, slice_split buf (by omega : 0 ≤ cursor + 2)
      (by omega : cursor + 2 ≤ cursor + 2 + macLen), slice_zero, tagExact,
      signedExact, encodeRequest]
  refine ⟨⟨buf.drop (cursor + 2 + macLen), ?_⟩, ?_, fits, skew⟩
  · rw [← wholeExact, List.take_append_drop]
  · rw [← wholeExact, List.length_take]
    exact (Nat.min_eq_left macInside).symm

/-! ## Decode after encode -/

theorem parseHost_complete (before after : Bytes) (host : Host)
    (fits : ∀ d, host = .domain d → (utf8Bytes d).length ≤ maxDomainLen)
    (width : before.length = 9) :
    parseHost (before ++ (host.addrBytes ++ after))
        (byteAt (before ++ (host.addrBytes ++ after)) 9) 10 =
      .ok (host, 9 + host.addrBytes.length) := by
  cases host with
  | v4 a =>
      have tagRead := byteAt_append before (a.toList ++ after) atypIpv4 9 width.symm
      have regrouped : before ++ atypIpv4 :: (a.toList ++ after) =
          (before ++ [atypIpv4]) ++ (a.toList ++ after) := by simp
      simp only [Host.addrBytes, List.cons_append, tagRead]
      rw [regrouped, parseHost, if_pos rfl,
        copyArray_append (before ++ [atypIpv4]) after a 10 (by simp [width]),
        need_enough (by simp [width]; omega)]
      simp [bind, Except.bind]
  | domain d =>
      have nameFits := fits d rfl
      have nameByte : (UInt8.ofNat (utf8Bytes d).length).toNat =
          (utf8Bytes d).length := by
        simp only [maxDomainLen] at nameFits
        exact UInt8.toNat_ofNat_of_lt' (by simp only [UInt8.size]; omega)
      have tagRead := byteAt_append before
        (UInt8.ofNat (utf8Bytes d).length :: (utf8Bytes d ++ after)) atypDomain 9
        width.symm
      have lengthRead := byteAt_append (before ++ [atypDomain])
        (utf8Bytes d ++ after) (UInt8.ofNat (utf8Bytes d).length)
        10 (by simp [width])
      have nameRead := slice_append
        (before ++ [atypDomain, UInt8.ofNat (utf8Bytes d).length])
        (utf8Bytes d) after (10 + 1) (10 + 1 + (utf8Bytes d).length)
        (by simp [width]) (by simp [width])
      simp only [List.append_assoc, List.cons_append, List.nil_append]
        at tagRead lengthRead nameRead
      simp only [Host.addrBytes, List.cons_append, tagRead]
      rw [parseHost, if_neg (by decide), if_pos rfl]
      rw [need_enough (by simp [width]; omega), lengthRead, nameByte]
      simp only [bind, Except.bind, if_neg (Nat.not_lt.mpr nameFits)]
      rw [need_enough (by simp [width]; omega), nameRead, fromUtf8_utf8Bytes]
      simp only [List.length_cons, Except.ok.injEq, Prod.mk.injEq, true_and]
      omega
  | v6 a =>
      have tagRead := byteAt_append before (a.toList ++ after) atypIpv6 9 width.symm
      have regrouped : before ++ atypIpv6 :: (a.toList ++ after) =
          (before ++ [atypIpv6]) ++ (a.toList ++ after) := by simp
      simp only [Host.addrBytes, List.cons_append, tagRead]
      rw [regrouped, parseHost, if_neg (by decide), if_neg (by decide),
        if_pos rfl,
        copyArray_append (before ++ [atypIpv6]) after a 10 (by simp [width]),
        need_enough (by simp [width]; omega)]
      simp [bind, Except.bind]

/-- On signed bytes, any tag of the right width and anything after it, only the
MAC and freshness are left to decide. -/
theorem parseRequest_tagged (hmac : HmacSha256) (key tag rest : Bytes)
    (timestamp now maxSkew : UInt64) (target : Target)
    (fits : target.DomainFits) (width : tag.length = macLen) :
    parseRequest hmac (signedBytes timestamp target ++ (tag ++ rest)) key now maxSkew =
      (verifyMac hmac key (signedBytes timestamp target) tag).bind fun _ =>
        checkFresh now maxSkew
          { target, timestamp,
            consumed := (signedBytes timestamp target).length + macLen } := by
  obtain ⟨host, port⟩ := target
  have signedLength : (signedBytes timestamp ⟨host, port⟩).length =
    9 + host.addrBytes.length + 2 := signedBytes_length timestamp ⟨host, port⟩
  have regrouped : signedBytes timestamp ⟨host, port⟩ ++ (tag ++ rest) =
      (version :: leBytes 8 timestamp.toNat) ++
        (host.addrBytes ++ (beBytes 2 port.toNat ++ (tag ++ rest))) := by
    simp [signedBytes_eq]
  have hostRead := parseHost_complete (version :: leBytes 8 timestamp.toNat)
    (beBytes 2 port.toNat ++ (tag ++ rest)) host fits (by simp)
  have stampRead := slice_append [version] (leBytes 8 timestamp.toNat)
    (host.addrBytes ++ (beBytes 2 port.toNat ++ (tag ++ rest))) 1 9 rfl (by simp)
  have portRead := slice_append
    ((version :: leBytes 8 timestamp.toNat) ++ host.addrBytes)
    (beBytes 2 port.toNat) (tag ++ rest)
    (9 + host.addrBytes.length) (9 + host.addrBytes.length + 2)
    (by simp; omega) (by simp; omega)
  have tagRead := slice_append (signedBytes timestamp ⟨host, port⟩) tag rest
    (9 + host.addrBytes.length + 2) (9 + host.addrBytes.length + 2 + macLen)
    signedLength.symm (by rw [signedLength, width])
  have signedRead : (signedBytes timestamp ⟨host, port⟩ ++ (tag ++ rest)).take
      (9 + host.addrBytes.length + 2) = signedBytes timestamp ⟨host, port⟩ := by
    rw [← signedLength, List.take_left]
  simp only [List.append_assoc] at portRead
  rw [← regrouped] at hostRead portRead
  rw [List.singleton_append, ← List.cons_append, ← regrouped] at stampRead
  have headRead : byteAt (signedBytes timestamp ⟨host, port⟩ ++ (tag ++ rest)) 0 =
      version := by
    rw [regrouped]
    rfl
  have bounds : (signedBytes timestamp ⟨host, port⟩ ++ (tag ++ rest)).length =
      9 + host.addrBytes.length + 2 + macLen + rest.length := by
    rw [List.length_append, List.length_append, signedLength, width]
    omega
  have addrNonempty : 0 < host.addrBytes.length := by
    cases host <;> simp [Host.addrBytes]
  have portExact : UInt16.ofNat (beValue (beBytes 2 port.toNat)) = port := by
    rw [beValue_beBytes 2 port.toNat port.toNat_lt, UInt16.ofNat_toNat]
  have stampExact : UInt64.ofNat (leValue (leBytes 8 timestamp.toNat)) =
      timestamp := by
    rw [leValue_leBytes 8 timestamp.toNat timestamp.toNat_lt, UInt64.ofNat_toNat]
  rw [signedLength]
  generalize signedBytes timestamp ⟨host, port⟩ ++ (tag ++ rest) = buf at *
  rw [parseRequest, need_enough (by omega), headRead, hostRead, stampRead]
  simp only [bind, Except.bind, ne_eq, not_true_eq_false, if_false]
  rw [need_enough (by omega), need_enough (by omega), signedRead, tagRead,
    portRead, stampExact, portExact]

theorem parseRequest_complete (hmac : HmacSha256) (key rest : Bytes)
    (timestamp now maxSkew : UInt64) (target : Target)
    (fits : target.DomainFits) :
    parseRequest hmac (encodeRequest hmac key timestamp target ++ rest) key
        now maxSkew =
      checkFresh now maxSkew
        { target, timestamp,
          consumed := (encodeRequest hmac key timestamp target).length } := by
  have verified : verifyMac hmac key (signedBytes timestamp target)
      (mac hmac key (signedBytes timestamp target)).toList = .ok () := if_pos rfl
  rw [encodeRequest, List.append_assoc, parseRequest_tagged hmac key _ rest timestamp
    now maxSkew target fits Vector.length_toList, verified, List.length_append,
    Vector.length_toList]
  rfl

/-- A domain whose length byte exceeds the limit is refused before its bytes
are read. -/
theorem parseRequest_domainTooLong (hmac : HmacSha256) (key rest : Bytes)
    (timestamp now maxSkew : UInt64) (length : UInt8)
    (tooLong : maxDomainLen < length.toNat) :
    parseRequest hmac ((version :: leBytes 8 timestamp.toNat) ++
        (atypDomain :: length :: rest)) key now maxSkew =
      .error (.domainTooLong length.toNat) := by
  have tagRead := byteAt_append (version :: leBytes 8 timestamp.toNat)
    (length :: rest) atypDomain 9 (by simp)
  have lengthRead := byteAt_append
    ((version :: leBytes 8 timestamp.toNat) ++ [atypDomain]) rest length
    10 (by simp)
  rw [List.append_assoc, List.singleton_append] at lengthRead
  have headRead : byteAt ((version :: leBytes 8 timestamp.toNat) ++
      (atypDomain :: length :: rest)) 0 = version := rfl
  rw [parseRequest, need_enough (by simp; omega), headRead, tagRead, parseHost,
    if_neg (by decide : atypDomain ≠ atypIpv4), if_pos rfl,
    need_enough (by simp; omega), lengthRead]
  simp only [bind, Except.bind, ne_eq, not_true_eq_false, if_false,
    if_pos tooLong]

/-! ## Acceptance -/

/-- `buf` begins with the encoding of `p`, which ends where `p` says. -/
def IsHeaderOf (hmac : HmacSha256) (key buf : Bytes) (p : ParsedRequest) : Prop :=
  (∃ rest, buf = encodeRequest hmac key p.timestamp p.target ++ rest) ∧
    p.consumed = (encodeRequest hmac key p.timestamp p.target).length ∧
    p.target.DomainFits

theorem parseRequest_ok_iff (hmac : HmacSha256) (buf key : Bytes)
    (now maxSkew : UInt64) (p : ParsedRequest) :
    parseRequest hmac buf key now maxSkew = .ok p ↔
      IsHeaderOf hmac key buf p ∧
        |(now.toNat : Int) - p.timestamp.toNat| ≤ maxSkew.toNat := by
  constructor
  · intro success
    obtain ⟨encoded, length, fits, skew⟩ :=
      parseRequest_sound hmac buf key now maxSkew p success
    exact ⟨⟨encoded, length, fits⟩, skew⟩
  · rintro ⟨⟨⟨rest, encoded⟩, length, fits⟩, skew⟩
    rw [encoded, parseRequest_complete hmac key rest p.timestamp now maxSkew
      p.target fits]
    exact (checkFresh_ok_iff now maxSkew _ p).mpr ⟨by rw [← length], skew⟩

/-- A buffer is the header of at most one request: read it back at that
request's own timestamp. -/
theorem IsHeaderOf.unique {hmac : HmacSha256} {key buf : Bytes}
    {p q : ParsedRequest} (first : IsHeaderOf hmac key buf p)
    (second : IsHeaderOf hmac key buf q) : p = q := by
  have widest : ∀ now stamp : UInt64,
      |(now.toNat : Int) - stamp.toNat| ≤ (UInt64.ofNat (2 ^ 64 - 1)).toNat := by
    intro now stamp
    have nowBound := now.toNat_lt
    have stampBound := stamp.toNat_lt
    rw [abs_le, UInt64.toNat_ofNat_of_lt' (by decide)]
    omega
  have parsedFirst := (parseRequest_ok_iff hmac buf key 0
    (UInt64.ofNat (2 ^ 64 - 1)) p).mpr ⟨first, widest _ _⟩
  have parsedSecond := (parseRequest_ok_iff hmac buf key 0
    (UInt64.ofNat (2 ^ 64 - 1)) q).mpr ⟨second, widest _ _⟩
  exact Except.ok.inj (parsedFirst.symm.trans parsedSecond)

/-- Acceptance is exactly being a fresh encoding.  Hence every such header
round-trips, the request read from a buffer is unique whatever the clock, and
one captured header is accepted only at clocks within twice the window. -/
theorem parseRequest_accepts_exactly_encodings (hmac : HmacSha256) (key : Bytes)
    (maxSkew : UInt64) :
    (∀ (buf : Bytes) (now : UInt64) (p : ParsedRequest),
      parseRequest hmac buf key now maxSkew = .ok p ↔
        (∃ rest, buf = encodeRequest hmac key p.timestamp p.target ++ rest) ∧
          p.consumed = (encodeRequest hmac key p.timestamp p.target).length ∧
          (∀ d, p.target.host = .domain d → (utf8Bytes d).length ≤ 253) ∧
          |(now.toNat : Int) - p.timestamp.toNat| ≤ maxSkew.toNat) ∧
    (∀ (timestamp now : UInt64) (target : Target) (rest : Bytes),
      (∀ d, target.host = .domain d → (utf8Bytes d).length ≤ 253) →
      |(now.toNat : Int) - timestamp.toNat| ≤ maxSkew.toNat →
      parseRequest hmac (encodeRequest hmac key timestamp target ++ rest) key
          now maxSkew =
        .ok { target, timestamp,
              consumed := (encodeRequest hmac key timestamp target).length }) ∧
    (∀ (buf : Bytes) (p q : ParsedRequest), IsHeaderOf hmac key buf p →
      IsHeaderOf hmac key buf q → p = q) ∧
    (∀ (buf : Bytes) (now later : UInt64) (p q : ParsedRequest),
      parseRequest hmac buf key now maxSkew = .ok p →
      parseRequest hmac buf key later maxSkew = .ok q →
      p = q ∧ |(now.toNat : Int) - later.toNat| ≤ 2 * (maxSkew.toNat : Int)) := by
  refine ⟨?_, ?_, ?_, ?_⟩
  · intro buf now p
    rw [parseRequest_ok_iff]
    simp only [IsHeaderOf, Target.DomainFits, maxDomainLen, and_assoc]
  · intro timestamp now target rest fits skew
    rw [parseRequest_complete hmac key rest timestamp now maxSkew target fits]
    exact (checkFresh_ok_iff now maxSkew _ _).mpr ⟨rfl, skew⟩
  · intro buf p q first second
    exact first.unique second
  · intro buf now later p q acceptedNow acceptedLater
    obtain ⟨first, skewNow⟩ := (parseRequest_ok_iff ..).mp acceptedNow
    obtain ⟨second, skewLater⟩ := (parseRequest_ok_iff ..).mp acceptedLater
    have same : p = q := first.unique second
    subst same
    refine ⟨rfl, ?_⟩
    rw [abs_le] at *
    omega

end RealityHydra.TunnelProto
