import Mathlib.Algebra.Order.Group.Abs
import Mathlib.Algebra.Order.Group.Int
import RealityHydra.Lib.ByteCodec

/-!
# Primitives shared by the crates

The two hash functions are parameters of the model: every result holds for any
function with their input and output shapes.  `u64` arithmetic that the crates
use beyond the wrapping operators is stated here with its value as a natural
number.
-/

set_option autoImplicit false

namespace RealityHydra.Primitives

open RealityHydra.Lib.ByteCodec

/-- HMAC-SHA256 as a function of the key and the message. -/
abbrev HmacSha256 := Bytes → Bytes → Vector UInt8 32

abbrev Sha256 := Bytes → Vector UInt8 32

instance instPreorderUInt64 : Preorder UInt64 where
  le_refl value := UInt64.le_refl value
  le_trans _ _ _ := UInt64.le_trans
  lt_iff_le_not_ge left right := by
    rw [UInt64.lt_iff_toNat_lt, UInt64.le_iff_toNat_le, UInt64.le_iff_toNat_le]
    omega

def absDiff (left right : UInt64) : UInt64 :=
  if left < right then right - left else left - right

theorem absDiff_toNat (left right : UInt64) :
    ((absDiff left right).toNat : Int) = |(left.toNat : Int) - right.toNat| := by
  unfold absDiff
  split
  · rename_i less
    have ordered : left.toNat < right.toNat := UInt64.lt_iff_toNat_lt.mp less
    rw [UInt64.toNat_sub_of_le _ _ (UInt64.le_iff_toNat_le.mpr ordered.le)]
    rw [abs_of_neg (by omega)]
    omega
  · rename_i notLess
    have ordered : right.toNat ≤ left.toNat :=
      Nat.not_lt.mp fun less => notLess (UInt64.lt_iff_toNat_lt.mpr less)
    rw [UInt64.toNat_sub_of_le _ _ (UInt64.le_iff_toNat_le.mpr ordered)]
    rw [abs_of_nonneg (by omega)]
    omega

def saturatingAdd (left right : UInt64) : UInt64 :=
  UInt64.ofNat (min (left.toNat + right.toNat) (2 ^ 64 - 1))

def saturatingSub (left right : UInt64) : UInt64 :=
  if right ≤ left then left - right else 0

@[simp] theorem saturatingAdd_toNat (left right : UInt64) :
    (saturatingAdd left right).toNat = min (left.toNat + right.toNat) (2 ^ 64 - 1) :=
  UInt64.toNat_ofNat_of_lt' (by rw [UInt64.size]; omega)

@[simp] theorem saturatingSub_toNat (left right : UInt64) :
    (saturatingSub left right).toNat = left.toNat - right.toNat := by
  unfold saturatingSub
  split
  · rename_i fits
    exact UInt64.toNat_sub_of_le _ _ fits
  · rename_i larger
    have ordered := mt UInt64.le_iff_toNat_le.mpr larger
    have zero : (0 : UInt64).toNat = 0 := rfl
    omega

end RealityHydra.Primitives
