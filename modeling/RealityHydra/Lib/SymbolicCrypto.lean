import Mathlib.Data.Sym.Sym2
import RealityHydra.Lib.ByteCodec

/-!
# Symbolic cryptography

Key agreement, key derivation and authenticated encryption as opaque terms:
what two keys agree on is symmetric, a derived key determines what it was
derived from, and a box opens with what it was sealed with and nothing else.
-/

set_option autoImplicit false

namespace RealityHydra.Lib.SymbolicCrypto

open RealityHydra.Lib.ByteCodec

structure Crypto (Private : Type) where
  Public : Type
  Shared : Type
  Key : Type
  Box : Type
  publicOf : Private → Public
  agree : Private → Public → Shared
  derive : (salt info : Bytes) → Shared → Key
  box : Key → (nonce aad message : Bytes) → Box
  unbox : Key → (nonce aad : Bytes) → Box → Except String Bytes
  agree_comm : ∀ first second, agree first (publicOf second) = agree second (publicOf first)
  derive_injective : ∀ salt salt' info shared shared',
    derive salt info shared = derive salt' info shared' → salt = salt' ∧ shared = shared'
  unbox_box : ∀ key nonce aad message,
    unbox key nonce aad (box key nonce aad message) = .ok message
  unbox_other : ∀ key key' nonce nonce' aad aad' message,
    (key', nonce', aad') ≠ (key, nonce, aad) →
      ∃ e, unbox key' nonce' aad' (box key nonce aad message) = .error e

namespace Crypto

variable {Private : Type} (crypto : Crypto Private)

/-- Both ends derive the same key from the same salt. -/
theorem derive_agree (salt info : Bytes) (first second : Private) :
    crypto.derive salt info (crypto.agree first (crypto.publicOf second)) =
      crypto.derive salt info (crypto.agree second (crypto.publicOf first)) := by
  rw [crypto.agree_comm]

end Crypto

/-! ## The free terms -/

section Terms

variable (Private : Type) [DecidableEq Private]

structure BoxTerm where
  key : Bytes × Bytes × Sym2 Private
  nonce : Bytes
  aad : Bytes
  message : Bytes

/-- Every operation only records its arguments. -/
def terms : Crypto Private where
  Public := Private
  Shared := Sym2 Private
  Key := Bytes × Bytes × Sym2 Private
  Box := BoxTerm Private
  publicOf := id
  agree first second := s(first, second)
  derive salt info shared := (salt, info, shared)
  box key nonce aad message := ⟨key, nonce, aad, message⟩
  unbox key nonce aad held :=
    if (key, nonce, aad) = (held.key, held.nonce, held.aad) then .ok held.message
    else .error "closed"
  agree_comm first second := Sym2.eq_swap
  derive_injective salt salt' info shared shared' same := by
    obtain ⟨sameSalt, sameRest⟩ := Prod.mk.inj same
    exact ⟨sameSalt, (Prod.mk.inj sameRest).2⟩
  unbox_box key nonce aad message := if_pos rfl
  unbox_other key key' nonce nonce' aad aad' message different := ⟨_, if_neg different⟩

end Terms

end RealityHydra.Lib.SymbolicCrypto
