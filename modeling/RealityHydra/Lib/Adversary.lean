import Mathlib.Data.Set.Insert
import RealityHydra.Lib.SymbolicCrypto

/-!
# What an attacker can make

An attacker has private keys of its own and has seen public keys and boxes.  It
applies the operations to what it has.  As none of them can be undone, each kind of
term is made of the kinds before it, and what two keys agree on is known only with
one of them in hand and the other's public half in sight.
-/

set_option autoImplicit false

namespace RealityHydra.Lib.SymbolicCrypto

open RealityHydra.Lib.ByteCodec

/-! ## Made of what is known -/

section Making

variable {Private : Type} {crypto : Crypto Private}

variable (crypto) in
structure Knowledge where
  privates : Set Private
  publics : Set crypto.Public
  boxes : Set crypto.Box

namespace Knowledge

variable (known : Knowledge crypto)

inductive Public : crypto.Public → Prop
  | seen {point : crypto.Public} (isIn : point ∈ known.publics) : Public point
  | own {key : Private} (isIn : key ∈ known.privates) : Public (crypto.publicOf key)

inductive Shared : crypto.Shared → Prop
  | agree {key : Private} {point : crypto.Public} (isIn : key ∈ known.privates)
      (isKnown : known.Public point) : Shared (crypto.agree key point)

inductive Key : crypto.Key → Prop
  | derive (salt info : Bytes) {shared : crypto.Shared} (isKnown : known.Shared shared) :
      Key (crypto.derive salt info shared)

inductive Box : crypto.Box → Prop
  | seen {box : crypto.Box} (isIn : box ∈ known.boxes) : Box box
  | box {key : crypto.Key} (isKnown : known.Key key) (nonce aad message : Bytes) :
      Box (crypto.box key nonce aad message)

end Knowledge

end Making

/-! ## A point of small order

Whoever multiplies such a point gets the same, so that every private key agrees with
it on one secret.  -/

section SmallOrder

variable (Private : Type) [DecidableEq Private]

/-- A box, and any bytes that are none. -/
structure SealedTerm where
  key : Bytes × Bytes × Option (Sym2 Private)
  nonce : Bytes
  aad : Bytes
  message : Bytes

/-- The free terms, with one point of small order beside the public keys. -/
def smallOrderTerms : Crypto Private where
  Public := Option Private
  Shared := Option (Sym2 Private)
  Key := Bytes × Bytes × Option (Sym2 Private)
  Box := SealedTerm Private
  publicOf := some
  agree first point := point.map fun second => s(first, second)
  derive salt info shared := (salt, info, shared)
  box key nonce aad message := ⟨key, nonce, aad, message⟩
  unbox key nonce aad held :=
    if (key, nonce, aad) = (held.key, held.nonce, held.aad) then .ok held.message
    else .error "closed"
  agree_comm first second := congrArg some Sym2.eq_swap
  derive_injective salt salt' info shared shared' same := by
    obtain ⟨sameSalt, sameRest⟩ := Prod.mk.inj same
    exact ⟨sameSalt, (Prod.mk.inj sameRest).2⟩
  unbox_box key nonce aad message := if_pos rfl
  unbox_other key key' nonce nonce' aad aad' message different := ⟨_, if_neg different⟩

def smallOrder : (smallOrderTerms Private).Public := none

variable {Private}

theorem publicOf_ne_smallOrder (key : Private) :
    (smallOrderTerms Private).publicOf key ≠ smallOrder Private := Option.some_ne_none key

theorem publicOf_inj {first second : Private}
    (same : (smallOrderTerms Private).publicOf first = (smallOrderTerms Private).publicOf second) :
    first = second := Option.some.inj same

theorem point_cases (point : (smallOrderTerms Private).Public) :
    point = smallOrder Private ∨ ∃ key, point = (smallOrderTerms Private).publicOf key := by
  cases point with
  | none => exact Or.inl rfl
  | some key => exact Or.inr ⟨key, rfl⟩

theorem agree_inj {key : Private} {first second : (smallOrderTerms Private).Public}
    (same : (smallOrderTerms Private).agree key first =
      (smallOrderTerms Private).agree key second) : first = second := by
  refine Option.map_injective ?_ same
  intro one other equal
  exact Sym2.congr_right.mp equal

theorem box_inj {key key' : (smallOrderTerms Private).Key}
    {nonce nonce' aad aad' message message' : Bytes}
    (same : (smallOrderTerms Private).box key nonce aad message =
      (smallOrderTerms Private).box key' nonce' aad' message') :
    key = key' ∧ nonce = nonce' ∧ aad = aad' ∧ message = message' := SealedTerm.mk.inj same

end SmallOrder

namespace Knowledge

section Small

variable {Private : Type} [DecidableEq Private] {known : Knowledge (smallOrderTerms Private)}

theorem public_iff {key : Private} :
    known.Public ((smallOrderTerms Private).publicOf key) ↔
      (smallOrderTerms Private).publicOf key ∈ known.publics ∨ key ∈ known.privates := by
  constructor
  · intro isKnown
    generalize isPoint : (smallOrderTerms Private).publicOf key = point at isKnown
    cases isKnown with
    | seen isIn => exact Or.inl isIn
    | @own other isIn => exact Or.inr (Option.some.inj isPoint ▸ isIn)
  · rintro (seen | own)
    · exact .seen seen
    · exact .own own

/-- What two keys agree on is known only with one of them and the other's public half. -/
theorem shared_iff {first second : Private} :
    known.Shared ((smallOrderTerms Private).agree first
        ((smallOrderTerms Private).publicOf second)) ↔
      first ∈ known.privates ∧ known.Public ((smallOrderTerms Private).publicOf second) ∨
        second ∈ known.privates ∧ known.Public ((smallOrderTerms Private).publicOf first) := by
  constructor
  · intro isKnown
    generalize isShared : (smallOrderTerms Private).agree first
      ((smallOrderTerms Private).publicOf second) = shared at isKnown
    cases isKnown with
    | @agree key point isIn pointKnown =>
        cases point with
        | none => exact absurd isShared (Option.some_ne_none _)
        | some other =>
            have same : s(first, second) = s(key, other) := Option.some.inj isShared
            rcases Sym2.eq_iff.mp same with ⟨rfl, rfl⟩ | ⟨rfl, rfl⟩
            · exact Or.inl ⟨isIn, pointKnown⟩
            · exact Or.inr ⟨isIn, pointKnown⟩
  · rintro (⟨isIn, isKnown⟩ | ⟨isIn, isKnown⟩)
    · exact .agree isIn isKnown
    · rw [(smallOrderTerms Private).agree_comm]
      exact .agree isIn isKnown

theorem key_iff {salt info : Bytes} {shared : (smallOrderTerms Private).Shared} :
    known.Key ((smallOrderTerms Private).derive salt info shared) ↔ known.Shared shared := by
  constructor
  · intro isKnown
    generalize isKey : (smallOrderTerms Private).derive salt info shared = key at isKnown
    cases isKnown with
    | derive salt' info' sharedKnown =>
        have same := (Prod.mk.inj (Prod.mk.inj isKey).2).2
        rw [same]
        exact sharedKnown
  · exact .derive salt info

/-- A box that opens was made with the key it opens with. -/
theorem eq_box_of_unbox {key : (smallOrderTerms Private).Key} {nonce aad message : Bytes}
    {held : (smallOrderTerms Private).Box}
    (opens : (smallOrderTerms Private).unbox key nonce aad held = .ok message) :
    held = (smallOrderTerms Private).box key nonce aad message := by
  obtain ⟨key', nonce', aad', message'⟩ := held
  dsimp only [smallOrderTerms] at opens ⊢
  split at opens
  · rename_i same
    cases same
    cases opens
    rfl
  · contradiction

end Small

end Knowledge

end RealityHydra.Lib.SymbolicCrypto
