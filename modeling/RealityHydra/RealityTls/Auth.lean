import RealityHydra.Lib.SymbolicCrypto

/-!
# REALITY session tokens

The token is the box around sixteen packed bytes, under a key and a nonce that
split the ClientHello random at byte 20 and with the whole ClientHello as
associated data.
-/

set_option autoImplicit false

namespace RealityHydra.RealityTls

open RealityHydra.Lib.ByteCodec
open RealityHydra.Lib.SymbolicCrypto

/-- `b"REALITY"` -/
def realityHkdfInfo : Bytes := [82, 69, 65, 76, 73, 84, 89]

def keyLen : Nat := 32
def clientRandomLen : Nat := 32
def plaintextLen : Nat := 16
def shortIdFieldLen : Nat := 8
def maxShortIdLen : Nat := 32

inductive RealityError where
  | shortIdTooLong (length : Nat)
  | authOpen (message : String)
  deriving DecidableEq, Repr

abbrev PrivateKey := Vector UInt8 keyLen
abbrev ClientRandom := Vector UInt8 clientRandomLen

structure AuthPayload where
  version : Vector UInt8 3
  timestamp : UInt32
  shortId : Vector UInt8 shortIdFieldLen
  deriving DecidableEq, Repr

section Token

variable (crypto : Crypto PrivateKey)

structure RealityAuth where
  clientPublic : crypto.Public
  clientPrivate : PrivateKey
  sessionId : crypto.Box

def deriveAuthKey (shared : crypto.Shared) (clientRandom : ClientRandom) : crypto.Key :=
  crypto.derive (slice clientRandom.toList 0 20) realityHkdfInfo shared

def nonceOf (clientRandom : ClientRandom) : Bytes := slice clientRandom.toList 20 32

/-- `version || 0x00 || BE32(ts) || short_id[0..8]`, zero where the id is shorter. -/
def buildPlaintext (version : Vector UInt8 3) (timestamp : UInt32) (shortId : Bytes) : Bytes :=
  let n := min shortId.length shortIdFieldLen
  version.toList ++ 0 :: (beBytes 4 timestamp.toNat ++
    (shortId.take n ++ List.replicate (shortIdFieldLen - n) 0))

def parsePlaintext (plaintext : Bytes) : Except RealityError AuthPayload :=
  if plaintext.length ≠ plaintextLen then
    .error (.authOpen s!"plaintext length {plaintext.length} != {plaintextLen}")
  else
    .ok { version := copyArray 3 plaintext 0
          timestamp := UInt32.ofNat (beValue (slice plaintext 4 8))
          shortId := copyArray shortIdFieldLen plaintext 8 }

def sealWithEphemeral (clientPrivate : PrivateKey) (serverPublicKey : crypto.Public)
    (shortId : Bytes) (version : Vector UInt8 3) (timestamp : UInt32)
    (clientRandom : ClientRandom) (clientHelloRaw : Bytes) :
    Except RealityError (RealityAuth crypto) :=
  if shortId.length > maxShortIdLen then .error (.shortIdTooLong shortId.length)
  else
    let shared := crypto.agree clientPrivate serverPublicKey
    let authKey := deriveAuthKey crypto shared clientRandom
    let plaintext := buildPlaintext version timestamp shortId
    .ok { clientPublic := crypto.publicOf clientPrivate
          clientPrivate
          sessionId := crypto.box authKey (nonceOf clientRandom) clientHelloRaw plaintext }

def openToken (serverPrivateKey : PrivateKey) (clientPublicKey : crypto.Public)
    (sessionId : crypto.Box) (clientRandom : ClientRandom) (clientHelloRaw : Bytes) :
    Except RealityError AuthPayload :=
  let shared := crypto.agree serverPrivateKey clientPublicKey
  let authKey := deriveAuthKey crypto shared clientRandom
  match crypto.unbox authKey (nonceOf clientRandom) clientHelloRaw sessionId with
  | .error e => .error (.authOpen e)
  | .ok plaintext => parsePlaintext plaintext

end Token

section Plaintext

variable (version : Vector UInt8 3) (timestamp : UInt32) (shortId : Bytes)

/-- The field that travels: the first eight bytes, padded with zeros. -/
def shortIdField : Bytes :=
  shortId.take shortIdFieldLen ++ List.replicate (shortIdFieldLen - shortId.length) 0

theorem shortIdField_length : (shortIdField shortId).length = shortIdFieldLen := by
  simp only [shortIdField, List.length_append, List.length_take, List.length_replicate]
  omega

theorem buildPlaintext_eq :
    buildPlaintext version timestamp shortId =
      version.toList ++ ([0] ++ (beBytes 4 timestamp.toNat ++ shortIdField shortId)) := by
  have taken : shortId.take (min shortId.length shortIdFieldLen) =
      shortId.take shortIdFieldLen := List.take_eq_take_iff.mpr (by omega)
  have padding : shortIdFieldLen - min shortId.length shortIdFieldLen =
      shortIdFieldLen - shortId.length := by omega
  rw [buildPlaintext, shortIdField, taken, padding]
  rfl

theorem buildPlaintext_length :
    (buildPlaintext version timestamp shortId).length = plaintextLen := by
  simp [buildPlaintext_eq, shortIdField_length, plaintextLen, shortIdFieldLen]

/-- What was packed is unpacked. -/
theorem parsePlaintext_buildPlaintext :
    ∃ payload, parsePlaintext (buildPlaintext version timestamp shortId) = .ok payload ∧
      payload.version = version ∧ payload.timestamp = timestamp ∧
      payload.shortId.toList = shortIdField shortId := by
  have field := shortIdField_length shortId
  refine ⟨_, if_neg (not_not.mpr (buildPlaintext_length ..)), ?_, ?_, ?_⟩
  · rw [buildPlaintext_eq]
    exact copyArray_append [] _ version 0 rfl
  · have seconds : slice (buildPlaintext version timestamp shortId) 4 8 =
        beBytes 4 timestamp.toNat := by
      rw [buildPlaintext_eq, ← List.append_assoc version.toList]
      exact slice_append _ _ _ 4 8 (by simp) (by simp)
    dsimp only
    rw [seconds, beValue_beBytes 4 timestamp.toNat timestamp.toNat_lt, UInt32.ofNat_toNat]
  · have inside : 8 + shortIdFieldLen ≤ (buildPlaintext version timestamp shortId).length := by
      rw [buildPlaintext_length]
      decide
    dsimp only
    rw [copyArray_toList _ _ _ inside, buildPlaintext_eq]
    have whole : version.toList ++ ([0] ++ (beBytes 4 timestamp.toNat ++ shortIdField shortId)) =
        (version.toList ++ [0] ++ beBytes 4 timestamp.toNat) ++ (shortIdField shortId ++ []) := by
      simp
    rw [whole]
    exact slice_append _ _ _ 8 (8 + shortIdFieldLen) (by simp) (by simp [field])

end Plaintext

section Binding

variable (crypto : Crypto PrivateKey)

/-- The salt and the nonce together are the whole random. -/
theorem clientRandom_ext {first second : ClientRandom}
    (sameSalt : slice first.toList 0 20 = slice second.toList 0 20)
    (sameNonce : nonceOf first = nonceOf second) : first = second := by
  have whole : ∀ random : ClientRandom,
      random.toList = slice random.toList 0 20 ++ nonceOf random := by
    intro random
    rw [nonceOf, ← slice_split random.toList (by decide) (by decide), slice_zero,
      List.take_of_length_le]
    rw [Vector.length_toList]
    exact Nat.le_refl _
  apply Vector.toList_inj.mp
  rw [whole first, whole second, sameSalt, sameNonce]

theorem openToken_box (serverPrivate clientPrivate : PrivateKey) (clientRandom : ClientRandom)
    (hello plaintext : Bytes) :
    openToken crypto serverPrivate (crypto.publicOf clientPrivate)
        (crypto.box (deriveAuthKey crypto (crypto.agree clientPrivate
          (crypto.publicOf serverPrivate)) clientRandom) (nonceOf clientRandom) hello plaintext)
        clientRandom hello = parsePlaintext plaintext := by
  rw [openToken, deriveAuthKey, deriveAuthKey, crypto.derive_agree _ _ serverPrivate,
    crypto.unbox_box]

/-- In any other handshake the token does not open, with whatever keys. -/
theorem openToken_other (serverPrivate : PrivateKey) (clientPublic : crypto.Public)
    (shared : crypto.Shared) {clientRandom otherRandom : ClientRandom}
    {hello otherHello : Bytes}
    (different : otherRandom ≠ clientRandom ∨ otherHello ≠ hello) (plaintext : Bytes) :
    ∃ e, openToken crypto serverPrivate clientPublic
      (crypto.box (deriveAuthKey crypto shared clientRandom) (nonceOf clientRandom) hello
        plaintext) otherRandom otherHello = .error e := by
  have apart : (deriveAuthKey crypto (crypto.agree serverPrivate clientPublic) otherRandom,
      nonceOf otherRandom, otherHello) ≠
      (deriveAuthKey crypto shared clientRandom, nonceOf clientRandom, hello) := by
    intro same
    obtain ⟨sameKey, sameRest⟩ := Prod.mk.inj same
    obtain ⟨sameNonce, sameHello⟩ := Prod.mk.inj sameRest
    rcases different with otherBytes | otherAad
    · exact otherBytes (clientRandom_ext (crypto.derive_injective _ _ _ _ _ sameKey).1 sameNonce)
    · exact otherAad sameHello
  obtain ⟨e, failed⟩ := crypto.unbox_other _ _ _ _ _ _ plaintext apart
  refine ⟨.authOpen e, ?_⟩
  rw [openToken, failed]

end Binding

/-- A token opens to what was sealed in the handshake it was sealed for, and is
refused in every other one. -/
theorem token_opens_only_in_its_handshake (crypto : Crypto PrivateKey)
    (serverPrivate clientPrivate : PrivateKey) (shortId : Bytes) (version : Vector UInt8 3)
    (timestamp : UInt32) (clientRandom : ClientRandom) (hello : Bytes) :
    let sealed := sealWithEphemeral crypto clientPrivate (crypto.publicOf serverPrivate)
      shortId version timestamp clientRandom hello
    (32 < shortId.length → sealed = .error (.shortIdTooLong shortId.length)) ∧
    (shortId.length ≤ 32 → ∃ auth, sealed = .ok auth ∧
      (∃ payload,
        openToken crypto serverPrivate auth.clientPublic auth.sessionId clientRandom hello =
          .ok payload ∧
        payload.version = version ∧ payload.timestamp = timestamp ∧
        payload.shortId.toList =
          shortId.take 8 ++ List.replicate (8 - shortId.length) 0) ∧
      ∀ anyPrivate anyPublic otherRandom otherHello,
        otherRandom ≠ clientRandom ∨ otherHello ≠ hello →
        ∃ e, openToken crypto anyPrivate anyPublic auth.sessionId otherRandom otherHello =
          .error e) := by
  intro sealed
  refine ⟨fun tooLong => if_pos tooLong, ?_⟩
  intro accepted
  refine ⟨_, if_neg (Nat.not_lt.mpr accepted), ?_, ?_⟩
  · obtain ⟨payload, parsed, fields⟩ :=
      parsePlaintext_buildPlaintext version timestamp shortId
    refine ⟨payload, ?_, fields⟩
    rw [← parsed]
    exact openToken_box ..
  · intro anyPrivate anyPublic otherRandom otherHello different
    exact openToken_other crypto anyPrivate anyPublic _ different _

theorem ten_byte_short_id_opens_to_eight :
    ∃ auth, sealWithEphemeral (terms PrivateKey) (Vector.replicate 32 3)
        ((terms PrivateKey).publicOf (Vector.replicate 32 7)) [1, 2, 3, 4, 5, 6, 7, 8, 9, 10]
        #v[1, 8, 4] 0 (Vector.replicate 32 0) [] = .ok auth ∧
      ∃ payload, openToken (terms PrivateKey) (Vector.replicate 32 7) auth.clientPublic
          auth.sessionId (Vector.replicate 32 0) [] = .ok payload ∧
        payload.shortId.toList = [1, 2, 3, 4, 5, 6, 7, 8] := by
  obtain ⟨auth, sealed, ⟨payload, opened, _, _, field⟩, _⟩ :=
    (token_opens_only_in_its_handshake (terms PrivateKey) (Vector.replicate 32 7)
      (Vector.replicate 32 3) [1, 2, 3, 4, 5, 6, 7, 8, 9, 10] #v[1, 8, 4] 0
      (Vector.replicate 32 0) []).2 (by decide)
  exact ⟨auth, sealed, payload, opened, field⟩

end RealityHydra.RealityTls
