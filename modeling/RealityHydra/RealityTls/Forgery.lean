import RealityHydra.Lib.Adversary
import RealityHydra.Lib.Transition
import RealityHydra.RealityTls.Auth

/-!
# Tokens that no client issued

Clients hold the server's public key and send tokens.  Someone on the way, who does not
hold it, delivers what can be made of these tokens and of keys of its own.  The server
opens a token again that a client sent, and it opens whatever comes with the point of
small order, as it does not ask whether a public key has contributed to what is agreed on.
-/

set_option autoImplicit false

namespace RealityHydra.RealityTls

open RealityHydra.Lib.ByteCodec
open RealityHydra.Lib.SymbolicCrypto
open RealityHydra.Lib.Transition

/-! ## The way to the server -/

/-- Cryptography that only records what it is given. -/
abbrev crypto : Crypto PrivateKey := smallOrderTerms PrivateKey

/-- What `open` reads of a handshake. -/
structure ClientHello where
  clientPublic : crypto.Public
  sessionId : crypto.Box
  clientRandom : ClientRandom
  clientHelloRaw : Bytes

/-- The private keys of the one on the way, what clients have sent, and what the server
has opened. -/
structure Wire where
  own : Set PrivateKey
  sent : List ClientHello
  opened : List (ClientHello × AuthPayload)

inductive WireAction where
  | client (ephemeral : PrivateKey) (shortId : Bytes) (version : Vector UInt8 3)
      (timestamp : UInt32) (clientRandom : ClientRandom) (clientHelloRaw : Bytes)
  | keypair (key : PrivateKey)
  | deliver (hello : ClientHello)

def Wire.start : Wire := ⟨∅, [], []⟩

def wireStep (server : PrivateKey) (wire : Wire) : WireAction → Option Wire
  | .client ephemeral shortId version timestamp clientRandom clientHelloRaw =>
      match sealWithEphemeral crypto ephemeral (crypto.publicOf server) shortId version
          timestamp clientRandom clientHelloRaw with
      | .error _ => none
      | .ok auth =>
          let hello : ClientHello :=
            ⟨auth.clientPublic, auth.sessionId, clientRandom, clientHelloRaw⟩
          some { wire with sent := wire.sent ++ [hello] }
  | .keypair key => some { wire with own := insert key wire.own }
  | .deliver hello =>
      match openToken crypto server hello.clientPublic hello.sessionId hello.clientRandom
          hello.clientHelloRaw with
      | .error _ => none
      | .ok payload => some { wire with opened := wire.opened ++ [(hello, payload)] }

/-- Everyone sees what is sent, and knows the point of small order. -/
def Wire.known (wire : Wire) : Knowledge crypto where
  privates := wire.own
  publics := insert (smallOrder PrivateKey)
    {point | ∃ hello ∈ wire.sent, hello.clientPublic = point}
  boxes := {box | ∃ hello ∈ wire.sent, hello.sessionId = box}

/-- Keys are fresh, and what is delivered can be made. -/
def Unaided (server : PrivateKey) (wire : Wire) : WireAction → Prop
  | .client ephemeral _ _ _ _ _ => ephemeral ≠ server ∧ ephemeral ∉ wire.own
  | .keypair key =>
      key ≠ server ∧ ∀ hello ∈ wire.sent, hello.clientPublic ≠ crypto.publicOf key
  | .deliver hello =>
      wire.known.Public hello.clientPublic ∧ wire.known.Box hello.sessionId

/-! ## What opens -/

/-- The key under which the server opens what comes with this public key. -/
def openingKey (server : PrivateKey) (hello : ClientHello) : crypto.Key :=
  deriveAuthKey crypto (crypto.agree server hello.clientPublic) hello.clientRandom

theorem box_of_opened {server : PrivateKey} {hello : ClientHello} {payload : AuthPayload}
    (opens : openToken crypto server hello.clientPublic hello.sessionId hello.clientRandom
      hello.clientHelloRaw = .ok payload) :
    ∃ plaintext, hello.sessionId = crypto.box (openingKey server hello)
      (nonceOf hello.clientRandom) hello.clientHelloRaw plaintext := by
  unfold openToken at opens
  dsimp only at opens
  split at opens
  · contradiction
  · rename_i plaintext unboxed
    exact ⟨plaintext, Knowledge.eq_box_of_unbox unboxed⟩

/-- A token for this server, under a key that only its client has. -/
structure Issued (server : PrivateKey) (own : Set PrivateKey) (hello : ClientHello) : Prop where
  ephemeral : ∃ key, key ≠ server ∧ key ∉ own ∧ hello.clientPublic = crypto.publicOf key
  sealed : ∃ version timestamp shortId, hello.sessionId =
    crypto.box (openingKey server hello) (nonceOf hello.clientRandom) hello.clientHelloRaw
      (buildPlaintext version timestamp shortId)

structure Wire.Sound (server : PrivateKey) (wire : Wire) : Prop where
  secret : server ∉ wire.own
  sent : ∀ hello ∈ wire.sent, Issued server wire.own hello
  opened : ∀ hello payload, (hello, payload) ∈ wire.opened →
    hello ∈ wire.sent ∨ hello.clientPublic = smallOrder PrivateKey

variable {server : PrivateKey} {own : Set PrivateKey} {wire : Wire}

/-- Two tokens with one box are of one handshake, and under one public key. -/
theorem Issued.eq {sent hello : ClientHello} (issued : Issued server own sent)
    {plaintext : Bytes} (same : sent.sessionId = hello.sessionId)
    (isBox : hello.sessionId = crypto.box (openingKey server hello)
      (nonceOf hello.clientRandom) hello.clientHelloRaw plaintext) : sent = hello := by
  obtain ⟨version, timestamp, shortId, isSealed⟩ := issued.sealed
  obtain ⟨sameKey, sameNonce, sameRaw, -⟩ :=
    box_inj (isSealed.symm.trans (same.trans isBox))
  obtain ⟨sameSalt, sameShared⟩ := crypto.derive_injective _ _ _ _ _ sameKey
  have sameRandom : sent.clientRandom = hello.clientRandom :=
    clientRandom_ext sameSalt sameNonce
  have samePublic : sent.clientPublic = hello.clientPublic := agree_inj sameShared
  cases sent
  cases hello
  simp only [ClientHello.mk.injEq]
  exact ⟨samePublic, same, sameRandom, sameRaw⟩

theorem Issued.opens {hello : ClientHello} (issued : Issued server own hello) :
    ∃ payload, openToken crypto server hello.clientPublic hello.sessionId hello.clientRandom
      hello.clientHelloRaw = .ok payload := by
  obtain ⟨version, timestamp, shortId, isSealed⟩ := issued.sealed
  obtain ⟨payload, parsed, -⟩ := parsePlaintext_buildPlaintext version timestamp shortId
  refine ⟨payload, ?_⟩
  have unboxed : crypto.unbox (openingKey server hello) (nonceOf hello.clientRandom)
      hello.clientHelloRaw hello.sessionId =
        .ok (buildPlaintext version timestamp shortId) := by
    rw [isSealed, crypto.unbox_box]
  rw [openToken, ← openingKey, unboxed]
  exact parsed

namespace Wire.Sound

variable (sound : wire.Sound server)

include sound

theorem public_unknown : ¬ wire.known.Public (crypto.publicOf server) := by
  intro isKnown
  rcases Knowledge.public_iff.mp isKnown with (isSmall | ⟨hello, isIn, same⟩) | own
  · exact absurd isSmall (publicOf_ne_smallOrder server)
  · obtain ⟨ephemeral, other, -, isPublic⟩ := (sound.sent hello isIn).ephemeral
    exact other (publicOf_inj (isPublic.symm.trans same))
  · exact sound.secret own

/-- Nothing is agreed on with the server by anyone else, but for what all agree on. -/
theorem smallOrder_of_key {hello : ClientHello}
    (isKnown : wire.known.Key (openingKey server hello)) :
    hello.clientPublic = smallOrder PrivateKey := by
  have shared : wire.known.Shared (crypto.agree server hello.clientPublic) :=
    Knowledge.key_iff.mp isKnown
  rcases point_cases hello.clientPublic with isSmall | ⟨key, isPublic⟩
  · exact isSmall
  · rw [isPublic, Knowledge.shared_iff] at shared
    rcases shared with ⟨own, -⟩ | ⟨-, isKnown⟩
    · exact absurd own sound.secret
    · exact absurd isKnown sound.public_unknown

theorem opens {hello : ClientHello} {payload : AuthPayload}
    (isKnown : wire.known.Box hello.sessionId)
    (opens : openToken crypto server hello.clientPublic hello.sessionId hello.clientRandom
      hello.clientHelloRaw = .ok payload) :
    hello ∈ wire.sent ∨ hello.clientPublic = smallOrder PrivateKey := by
  obtain ⟨plaintext, isBox⟩ := box_of_opened opens
  generalize isHeld : hello.sessionId = held at isKnown
  cases isKnown with
  | seen isIn =>
      obtain ⟨sent, isIn, same⟩ := isIn
      have equal : sent = hello :=
        (sound.sent sent isIn).eq (same.trans isHeld.symm) isBox
      exact Or.inl (equal ▸ isIn)
  | box keyKnown nonce aad message =>
      have sameKey := (box_inj (isHeld.symm.trans isBox)).1
      rw [sameKey] at keyKnown
      exact Or.inr (sound.smallOrder_of_key keyKnown)

theorem step {action : WireAction} {after : Wire} (unaided : Unaided server wire action)
    (taken : wireStep server wire action = some after) : after.Sound server := by
  cases action with
  | client ephemeral shortId version timestamp clientRandom clientHelloRaw =>
      obtain ⟨other, notOwn⟩ := unaided
      dsimp only [wireStep, sealWithEphemeral] at taken
      split at taken
      · contradiction
      · rename_i auth sealed
        split at sealed
        · contradiction
        cases sealed
        cases taken
        refine ⟨sound.secret, ?_, ?_⟩
        · intro hello isIn
          rcases List.mem_append.mp isIn with before | new
          · exact sound.sent hello before
          · rw [List.mem_singleton] at new
            subst new
            refine ⟨⟨ephemeral, other, notOwn, rfl⟩, version, timestamp, shortId, ?_⟩
            dsimp only [openingKey]
            rw [crypto.agree_comm]
        · intro hello payload isIn
          refine (sound.opened hello payload isIn).imp_left ?_
          intro before
          exact List.mem_append_left _ before
  | keypair key =>
      obtain ⟨other, fresh⟩ := unaided
      cases taken
      refine ⟨?_, ?_, sound.opened⟩
      · rintro (same | own)
        · exact other same.symm
        · exact sound.secret own
      · intro hello isIn
        obtain ⟨⟨ephemeral, notServer, notOwn, isPublic⟩, isSealed⟩ := sound.sent hello isIn
        refine ⟨⟨ephemeral, notServer, ?_, isPublic⟩, isSealed⟩
        rintro (same | own)
        · exact fresh hello isIn (same ▸ isPublic)
        · exact notOwn own
  | deliver hello =>
      dsimp only [wireStep] at taken
      split at taken
      · contradiction
      · rename_i payload opened
        cases taken
        refine ⟨sound.secret, sound.sent, ?_⟩
        intro other otherPayload isIn
        rcases List.mem_append.mp isIn with before | new
        · exact sound.opened other otherPayload before
        · cases List.mem_singleton.mp new
          exact sound.opens unaided.2 opened

end Wire.Sound

/-- A token of one's own making, with the point of small order in place of its public key. -/
def forged (sessionId : crypto.Box) (clientRandom : ClientRandom) (clientHelloRaw : Bytes) :
    ClientHello :=
  ⟨smallOrder PrivateKey, sessionId, clientRandom, clientHelloRaw⟩

end RealityHydra.RealityTls
