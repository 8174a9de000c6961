import RealityHydra.Lib.StagedDecoder
import RealityHydra.TunnelProto.Wire

/-!
# Parsing and verifying a CONNECT header

`parseRequest` follows the source statement by statement: each `need` is the
length check that precedes a read, and reads after it are in bounds.  The
second half shows that all of it but the final freshness check is a staged
decoder, which never looks at the clock.
-/

set_option autoImplicit false

namespace RealityHydra.TunnelProto

open RealityHydra.Lib.ByteCodec
open RealityHydra.Lib.StagedDecoder
open RealityHydra.Primitives

inductive ProtoError where
  | truncated (needed : Nat)
  | badVersion (found : UInt8)
  | badAtyp (atyp : UInt8)
  | badDomain
  | domainTooLong (len : Nat)
  | badMac
  | stale (maxSkew : UInt64)
  deriving DecidableEq, Repr

def ProtoError.message : ProtoError → String
  | .truncated needed =>
      "truncated header: needed " ++ toString needed ++ " more byte(s)"
  | .badVersion found =>
      "unsupported protocol version " ++ toString found ++ " (expected " ++
        toString version ++ ")"
  | .badAtyp atyp => "unknown address type 0x" ++ hexByte atyp
  | .badDomain => "domain is not valid UTF-8"
  | .domainTooLong len =>
      "domain too long (" ++ toString len ++ " > " ++ toString maxDomainLen ++ ")"
  | .badMac => "authentication failed (bad MAC)"
  | .stale maxSkew =>
      "stale header: timestamp skew exceeds " ++ toString maxSkew ++ "s"

structure ParsedRequest where
  target : Target
  timestamp : UInt64
  consumed : Nat
  deriving DecidableEq, Repr

def need (held want : Nat) : Except ProtoError Unit :=
  if held < want then .error (.truncated (want - held)) else .ok ()

/-- The `match atyp` of the parser: the host, and the cursor behind it. -/
def parseHost (buf : Bytes) (atyp : UInt8) (cursor : Nat) :
    Except ProtoError (Host × Nat) :=
  if atyp = atypIpv4 then do
    need buf.length (cursor + 4)
    .ok (.v4 (copyArray 4 buf cursor), cursor + 4)
  else if atyp = atypDomain then do
    need buf.length (cursor + 1)
    let len := (byteAt buf cursor).toNat
    if maxDomainLen < len then .error (.domainTooLong len) else do
      need buf.length (cursor + 1 + len)
      match fromUtf8 (slice buf (cursor + 1) (cursor + 1 + len)) with
      | none => .error .badDomain
      | some d => .ok (.domain d, cursor + 1 + len)
  else if atyp = atypIpv6 then do
    need buf.length (cursor + 16)
    .ok (.v6 (copyArray 16 buf cursor), cursor + 16)
  else .error (.badAtyp atyp)

/-- `verify_slice` is an equality test on the tag. -/
def verifyMac (hmac : HmacSha256) (key signed tag : Bytes) :
    Except ProtoError Unit :=
  if (hmac key signed).toList = tag then .ok () else .error .badMac

def checkFresh (now maxSkew : UInt64) (request : ParsedRequest) :
    Except ProtoError ParsedRequest :=
  if maxSkew < absDiff now request.timestamp then .error (.stale maxSkew)
  else .ok request

def parseRequest (hmac : HmacSha256) (buf key : Bytes) (now maxSkew : UInt64) :
    Except ProtoError ParsedRequest := do
  need buf.length 10
  if byteAt buf 0 ≠ version then .error (.badVersion (byteAt buf 0)) else do
    let timestamp := UInt64.ofNat (leValue (slice buf 1 9))
    let (host, cursor) ← parseHost buf (byteAt buf 9) 10
    need buf.length (cursor + 2)
    let port := UInt16.ofNat (beValue (slice buf cursor (cursor + 2)))
    let cursor := cursor + 2
    need buf.length (cursor + macLen)
    verifyMac hmac key (buf.take cursor) (slice buf cursor (cursor + macLen))
    checkFresh now maxSkew
      { target := { host, port }, timestamp, consumed := cursor + macLen }

/-! ## The staged decoder behind the parser -/

/-- A whole header whose tag and freshness are still to be checked. -/
structure Unverified where
  signed : Bytes
  tag : Bytes
  request : ParsedRequest

abbrev HeaderDecoder := Staged UInt8 (Except ProtoError Unverified)

/-- The stages of `parseHost`, ending in a rejection or in the stages of `next`. -/
def hostDecoder (atyp : UInt8) (cursor : Nat)
    (next : Host → Nat → HeaderDecoder) : HeaderDecoder :=
  if atyp = atypIpv4 then
    .need (cursor + 4) fun seen => next (.v4 (copyArray 4 seen cursor)) (cursor + 4)
  else if atyp = atypDomain then
    .need (cursor + 1) fun seen =>
      let len := (byteAt seen cursor).toNat
      if maxDomainLen < len then .done (.error (.domainTooLong len))
      else .need (cursor + 1 + len) fun seen =>
        match fromUtf8 (slice seen (cursor + 1) (cursor + 1 + len)) with
        | none => .done (.error .badDomain)
        | some d => next (.domain d) (cursor + 1 + len)
  else if atyp = atypIpv6 then
    .need (cursor + 16) fun seen => next (.v6 (copyArray 16 seen cursor)) (cursor + 16)
  else .done (.error (.badAtyp atyp))

def tailDecoder (timestamp : UInt64) (host : Host) (cursor : Nat) : HeaderDecoder :=
  .need (cursor + 2) fun seen =>
    let port := UInt16.ofNat (beValue (slice seen cursor (cursor + 2)))
    .need (cursor + 2 + macLen) fun seen =>
      .done (.ok
        { signed := seen.take (cursor + 2)
          tag := slice seen (cursor + 2) (cursor + 2 + macLen)
          request := { target := { host, port }, timestamp,
                       consumed := cursor + 2 + macLen } })

/-- Everything the parser decides without the key and without the clock. -/
def headerDecoder : HeaderDecoder :=
  .need 10 fun seen =>
    if byteAt seen 0 ≠ version then .done (.error (.badVersion (byteAt seen 0)))
    else hostDecoder (byteAt seen 9) 10
      (tailDecoder (UInt64.ofNat (leValue (slice seen 1 9))))

def verifyHeader (hmac : HmacSha256) (key : Bytes) (now maxSkew : UInt64)
    (header : Unverified) : Except ProtoError ParsedRequest := do
  verifyMac hmac key header.signed header.tag
  checkFresh now maxSkew header.request

/-- A missing byte count is the parser's `Truncated`. -/
def stagedResult (hmac : HmacSha256) (key : Bytes) (now maxSkew : UInt64) :
    Except Nat (Except ProtoError Unverified) → Except ProtoError ParsedRequest
  | .error missing => .error (.truncated missing)
  | .ok answer => answer.bind (verifyHeader hmac key now maxSkew)

theorem need_short {held want : Nat} (short : held < want) :
    need held want = .error (.truncated (want - held)) := if_pos short

theorem need_enough {held want : Nat} (enough : want ≤ held) :
    need held want = .ok () := if_neg (Nat.not_lt.mpr enough)

theorem tailDecoder_run (hmac : HmacSha256) (key buf : Bytes)
    (now maxSkew timestamp : UInt64) (host : Host) (cursor : Nat) :
    stagedResult hmac key now maxSkew ((tailDecoder timestamp host cursor).run buf) =
      (do
        need buf.length (cursor + 2)
        need buf.length (cursor + 2 + macLen)
        verifyMac hmac key (buf.take (cursor + 2))
          (slice buf (cursor + 2) (cursor + 2 + macLen))
        checkFresh now maxSkew
          { target := { host, port := UInt16.ofNat (beValue
              (slice buf cursor (cursor + 2))) },
            timestamp, consumed := cursor + 2 + macLen }) := by
  unfold tailDecoder
  by_cases portShort : buf.length < cursor + 2
  · rw [Staged.run_need_short portShort, need_short portShort]
    rfl
  have portEnough := Nat.not_lt.mp portShort
  rw [Staged.run_need_enough portEnough, need_enough portEnough]
  by_cases macShort : buf.length < cursor + 2 + macLen
  · rw [Staged.run_need_short macShort, need_short macShort]
    rfl
  have macEnough := Nat.not_lt.mp macShort
  rw [Staged.run_need_enough macEnough, need_enough macEnough]
  rw [slice_take buf (le_refl (cursor + 2)),
    slice_take buf (le_refl (cursor + 2 + macLen)),
    List.take_take, Nat.min_eq_left (Nat.le_add_right _ _)]
  rfl

theorem hostDecoder_run (hmac : HmacSha256) (key buf : Bytes)
    (now maxSkew : UInt64) (atyp : UInt8) (cursor : Nat)
    (next : Host → Nat → HeaderDecoder) :
    stagedResult hmac key now maxSkew ((hostDecoder atyp cursor next).run buf) =
      parseHost buf atyp cursor >>= fun parsed =>
        stagedResult hmac key now maxSkew ((next parsed.1 parsed.2).run buf) := by
  unfold hostDecoder parseHost
  by_cases isV4 : atyp = atypIpv4
  · rw [if_pos isV4, if_pos isV4]
    by_cases short : buf.length < cursor + 4
    · rw [Staged.run_need_short short, need_short short]
      rfl
    · have enough := Nat.not_lt.mp short
      rw [Staged.run_need_enough enough, need_enough enough,
        copyArray_take 4 buf (le_refl _)]
      rfl
  rw [if_neg isV4, if_neg isV4]
  by_cases isDomain : atyp = atypDomain
  · rw [if_pos isDomain, if_pos isDomain]
    by_cases short : buf.length < cursor + 1
    · rw [Staged.run_need_short short, need_short short]
      rfl
    have enough := Nat.not_lt.mp short
    rw [Staged.run_need_enough enough, need_enough enough,
      byteAt_take buf (Nat.lt_succ_self cursor)]
    by_cases tooLong : maxDomainLen < (byteAt buf cursor).toNat
    · simp only [if_pos tooLong]
      rfl
    simp only [if_neg tooLong]
    by_cases nameShort : buf.length < cursor + 1 + (byteAt buf cursor).toNat
    · rw [Staged.run_need_short nameShort, need_short nameShort]
      rfl
    have nameEnough := Nat.not_lt.mp nameShort
    rw [Staged.run_need_enough nameEnough, need_enough nameEnough,
      slice_take buf (le_refl _)]
    cases fromUtf8 (slice buf (cursor + 1)
      (cursor + 1 + (byteAt buf cursor).toNat)) <;> rfl
  rw [if_neg isDomain, if_neg isDomain]
  by_cases isV6 : atyp = atypIpv6
  · rw [if_pos isV6, if_pos isV6]
    by_cases short : buf.length < cursor + 16
    · rw [Staged.run_need_short short, need_short short]
      rfl
    · have enough := Nat.not_lt.mp short
      rw [Staged.run_need_enough enough, need_enough enough,
        copyArray_take 16 buf (le_refl _)]
      rfl
  rw [if_neg isV6, if_neg isV6]
  rfl

/-- The parser is the staged decoder followed by the MAC and freshness checks. -/
theorem parseRequest_eq_run (hmac : HmacSha256) (buf key : Bytes)
    (now maxSkew : UInt64) :
    parseRequest hmac buf key now maxSkew =
      stagedResult hmac key now maxSkew (headerDecoder.run buf) := by
  unfold parseRequest headerDecoder
  by_cases short : buf.length < 10
  · rw [Staged.run_need_short short, need_short short]
    rfl
  have enough := Nat.not_lt.mp short
  rw [Staged.run_need_enough enough, need_enough enough,
    byteAt_take buf (by omega : 0 < 10), byteAt_take buf (by omega : 9 < 10),
    slice_take buf (by omega : 9 ≤ 10)]
  by_cases wrongVersion : byteAt buf 0 ≠ version
  · simp only [if_pos wrongVersion]
    rfl
  simp only [if_neg wrongVersion, hostDecoder_run, tailDecoder_run]
  rfl

/-! ## What the stages can ask for and answer -/

/-- The longest header: `1 + 8 + 1 + (1 + 253) + 2 + 32` bytes. -/
def longestHeader : Nat := 298

def NotTruncated {α : Type} (answer : Except ProtoError α) : Prop :=
  ∀ needed, answer ≠ .error (.truncated needed)

theorem tailDecoder_sound (timestamp : UInt64) (host : Host) (cursor : Nat)
    (fits : cursor ≤ 264) :
    (tailDecoder timestamp host cursor).Sound longestHeader NotTruncated := by
  apply Staged.Sound.need
  · simp only [longestHeader]
    omega
  intro seen
  apply Staged.Sound.need
  · simp only [longestHeader, macLen]
    omega
  intro seen
  exact Staged.Sound.done _ (by intro needed same; simp at same)

theorem hostDecoder_sound (atyp : UInt8) (next : Host → Nat → HeaderDecoder)
    (nextSound : ∀ host cursor, cursor ≤ 264 →
      (next host cursor).Sound longestHeader NotTruncated) :
    (hostDecoder atyp 10 next).Sound longestHeader NotTruncated := by
  unfold hostDecoder
  split
  · apply Staged.Sound.need _ _ (by decide)
    intro seen
    exact nextSound _ _ (by decide)
  split
  · apply Staged.Sound.need _ _ (by decide)
    intro seen
    dsimp only
    split
    · exact Staged.Sound.done _ (by intro needed same; simp at same)
    · rename_i fits
      simp only [maxDomainLen] at fits
      apply Staged.Sound.need
      · simp only [longestHeader]
        omega
      intro longer
      split
      · exact Staged.Sound.done _ (by intro needed same; simp at same)
      · exact nextSound _ _ (by omega)
  split
  · apply Staged.Sound.need _ _ (by decide)
    intro seen
    exact nextSound _ _ (by decide)
  · exact Staged.Sound.done _ (by intro needed same; simp at same)

theorem headerDecoder_sound : headerDecoder.Sound longestHeader NotTruncated := by
  apply Staged.Sound.need _ _ (by decide)
  intro seen
  split
  · exact Staged.Sound.done _ (by intro needed same; simp at same)
  · apply hostDecoder_sound
    intro host cursor fits
    exact tailDecoder_sound _ host cursor fits

theorem verifyHeader_notTruncated (hmac : HmacSha256) (key : Bytes)
    (now maxSkew : UInt64) (header : Unverified) :
    NotTruncated (verifyHeader hmac key now maxSkew header) := by
  intro needed same
  unfold verifyHeader verifyMac checkFresh at same
  split at same
  · simp only [bind, Except.bind] at same
    split at same <;> simp at same
  · simp [bind, Except.bind] at same

/-- Whether more bytes are asked for depends on the bytes alone. -/
theorem parseRequest_truncated_iff (hmac : HmacSha256) (buf key : Bytes)
    (now maxSkew : UInt64) (needed : Nat) :
    parseRequest hmac buf key now maxSkew = .error (.truncated needed) ↔
      headerDecoder.run buf = .error needed := by
  rw [parseRequest_eq_run]
  cases ran : headerDecoder.run buf with
  | error missing => simp [stagedResult]
  | ok answer =>
      have decided := headerDecoder_sound.answer buf ran
      cases answer with
      | error rejected => simpa [stagedResult, Except.bind] using decided needed
      | ok header =>
          simpa [stagedResult, Except.bind] using
            verifyHeader_notTruncated hmac key now maxSkew header needed

/-- The reported count is exact: it is positive, it never leads past the longest
header, and fewer bytes leave the rest of it missing. -/
theorem parseRequest_truncated_exact (hmac : HmacSha256) (buf key : Bytes)
    (now maxSkew : UInt64) (needed : Nat)
    (truncated : parseRequest hmac buf key now maxSkew = .error (.truncated needed)) :
    1 ≤ needed ∧ buf.length + needed ≤ longestHeader ∧
      ∀ more : Bytes, more.length < needed →
        parseRequest hmac (buf ++ more) key now maxSkew =
          .error (.truncated (needed - more.length)) := by
  have asked := (parseRequest_truncated_iff ..).mp truncated
  refine ⟨headerDecoder.missing_pos buf asked,
    headerDecoder_sound.asked_le buf asked, ?_⟩
  intro more fewer
  apply (parseRequest_truncated_iff ..).mpr
  exact headerDecoder.run_append_short buf more asked fewer

/-- An answer other than `Truncated` stays when more bytes arrive. -/
theorem parseRequest_append (hmac : HmacSha256) (buf more key : Bytes)
    (now maxSkew : UInt64)
    (decided : NotTruncated (parseRequest hmac buf key now maxSkew)) :
    parseRequest hmac (buf ++ more) key now maxSkew =
      parseRequest hmac buf key now maxSkew := by
  cases ran : headerDecoder.run buf with
  | error missing =>
      exact absurd ((parseRequest_truncated_iff ..).mpr ran) (decided missing)
  | ok answer =>
      rw [parseRequest_eq_run, parseRequest_eq_run,
        headerDecoder.run_append buf more ran, ran]

end RealityHydra.TunnelProto
