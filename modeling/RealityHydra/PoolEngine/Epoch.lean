import RealityHydra.Primitives

/-!
# Epoch arithmetic

A clock at most one epoch length away is at most one epoch away, also where the
window saturates.
-/

set_option autoImplicit false

namespace RealityHydra.PoolEngine

open RealityHydra.Primitives

/-- Nanoseconds are counted below one second. -/
instance nanosNeZero : NeZero 1000000000 := ⟨by decide⟩

structure Duration where
  secs : UInt64
  nanos : Fin 1000000000
  deriving DecidableEq, Repr

namespace Duration

def asMillis (duration : Duration) : Nat :=
  duration.secs.toNat * 1000 + duration.nanos.val / 1000000

/-- The derived order on the fields. -/
instance : LE Duration where
  le left right := left.secs < right.secs ∨ left.secs = right.secs ∧ left.nanos ≤ right.nanos

instance : DecidableLE Duration := fun left right =>
  inferInstanceAs (Decidable
    (left.secs < right.secs ∨ left.secs = right.secs ∧ left.nanos ≤ right.nanos))

theorem le_refl (duration : Duration) : duration ≤ duration :=
  Or.inr ⟨rfl, Nat.le_refl _⟩

theorem asMillis_mono {left right : Duration} (ordered : left ≤ right) :
    left.asMillis ≤ right.asMillis := by
  unfold asMillis
  have bounded := left.nanos.isLt
  rcases ordered with earlier | ⟨sameSecs, nanos⟩
  · have secs := UInt64.lt_iff_toNat_lt.mp earlier
    omega
  · have nanos : left.nanos.val ≤ right.nanos.val := nanos
    rw [sameSecs]
    omega

theorem asMillis_le (duration : Duration) : duration.asMillis ≤ 2 ^ 64 * 1000 - 1 := by
  have secs := duration.secs.toNat_lt
  have nanos := duration.nanos.isLt
  unfold asMillis
  omega

theorem exists_asMillis {millis : Nat} (fits : millis ≤ 2 ^ 64 * 1000 - 1) :
    ∃ duration : Duration, duration.asMillis = millis := by
  have nanos : millis % 1000 * 1000000 < 1000000000 := by omega
  refine ⟨⟨UInt64.ofNat (millis / 1000), ⟨_, nanos⟩⟩, ?_⟩
  have secs : (UInt64.ofNat (millis / 1000)).toNat = millis / 1000 :=
    UInt64.toNat_ofNat_of_lt' (by rw [UInt64.size]; omega)
  simp only [asMillis, secs]
  omega

theorem le_total (left right : Duration) : left ≤ right ∨ right ≤ left := by
  rcases Nat.lt_trichotomy left.secs.toNat right.secs.toNat with less | same | greater
  · exact Or.inl (Or.inl (UInt64.lt_iff_toNat_lt.mpr less))
  · have sameSecs : left.secs = right.secs := UInt64.toNat_inj.mp same
    rcases Nat.le_total left.nanos.val right.nanos.val with nanos | nanos
    · exact Or.inl (Or.inr ⟨sameSecs, nanos⟩)
    · exact Or.inr (Or.inr ⟨sameSecs.symm, nanos⟩)
  · exact Or.inr (Or.inl (UInt64.lt_iff_toNat_lt.mpr greater))

/-- `Ord::clamp`; `none` is its panic on an empty range. -/
def clamp (duration least greatest : Duration) : Option Duration :=
  if ¬ least ≤ greatest then none
  else if ¬ least ≤ duration then some least
  else if ¬ duration ≤ greatest then some greatest
  else some duration

theorem clamp_isSome {least greatest : Duration} (ordered : least ≤ greatest)
    (duration : Duration) : ∃ clamped, duration.clamp least greatest = some clamped := by
  unfold clamp
  rw [if_neg (not_not.mpr ordered)]
  split
  · exact ⟨least, rfl⟩
  · split
    · exact ⟨greatest, rfl⟩
    · exact ⟨duration, rfl⟩

theorem clamp_between {duration least greatest clamped : Duration}
    (isClamped : duration.clamp least greatest = some clamped) :
    least ≤ clamped ∧ clamped ≤ greatest := by
  unfold clamp at isClamped
  split at isClamped
  · contradiction
  · rename_i ordered
    rw [not_not] at ordered
    split at isClamped
    · cases isClamped
      exact ⟨le_refl _, ordered⟩
    · rename_i aboveLeast
      split at isClamped
      · cases isClamped
        exact ⟨ordered, le_refl _⟩
      · rename_i belowGreatest
        cases isClamped
        exact ⟨not_not.mp aboveLeast, not_not.mp belowGreatest⟩

theorem clamp_eq_none_iff {duration least greatest : Duration} :
    duration.clamp least greatest = none ↔ ¬ least ≤ greatest := by
  constructor
  · intro panicked ordered
    obtain ⟨clamped, isClamped⟩ := clamp_isSome ordered duration
    rw [isClamped] at panicked
    contradiction
  · intro empty
    exact if_pos empty

/-- Clamping a duration clamps its milliseconds. -/
theorem asMillis_of_clamp {duration least greatest clamped : Duration}
    (isClamped : duration.clamp least greatest = some clamped) :
    clamped.asMillis =
      max least.asMillis (min duration.asMillis greatest.asMillis) := by
  unfold clamp at isClamped
  split at isClamped
  · contradiction
  · rename_i ordered
    have range := asMillis_mono (not_not.mp ordered)
    split at isClamped
    · rename_i below
      have small := asMillis_mono ((le_total least duration).resolve_left below)
      cases isClamped
      omega
    · rename_i aboveLeast
      have large := asMillis_mono (not_not.mp aboveLeast)
      split at isClamped
      · rename_i above
        have beyond := asMillis_mono ((le_total duration greatest).resolve_left above)
        cases isClamped
        omega
      · rename_i belowGreatest
        have within := asMillis_mono (not_not.mp belowGreatest)
        cases isClamped
        omega

end Duration

abbrev Epoch := UInt64

def epochAt (unixSecs : UInt64) (epochLen : Duration) : Epoch :=
  -- a zero length would divide by zero
  let len := max epochLen.secs 1
  unixSecs / len

/-- `[epoch - 1, epoch, epoch + 1]`, saturating. -/
def epochWindow (epoch : Epoch) : List Epoch :=
  [saturatingSub epoch 1, epoch, saturatingAdd epoch 1]

def epochSecs (epochLen : Duration) : Nat := max 1 epochLen.secs.toNat

theorem epochAt_toNat (unixSecs : UInt64) (epochLen : Duration) :
    (epochAt unixSecs epochLen).toNat = unixSecs.toNat / epochSecs epochLen := by
  have len : (max epochLen.secs 1).toNat = epochSecs epochLen := by
    have unfolded : max epochLen.secs 1 =
      if epochLen.secs ≤ 1 then 1 else epochLen.secs := rfl
    rw [unfolded, epochSecs]
    split
    · rename_i small
      have := UInt64.le_iff_toNat_le.mp small
      have one : (1 : UInt64).toNat = 1 := rfl
      omega
    · rename_i large
      have := mt UInt64.le_iff_toNat_le.mpr large
      have one : (1 : UInt64).toNat = 1 := rfl
      omega
  simp only [epochAt, UInt64.toNat_div, len]

theorem mem_epochWindow_iff (epoch other : Epoch) :
    other ∈ epochWindow epoch ↔
      other.toNat ≤ epoch.toNat + 1 ∧ epoch.toNat ≤ other.toNat + 1 := by
  have one : (1 : UInt64).toNat = 1 := rfl
  have bounded := other.toNat_lt
  have below := epoch.toNat_lt
  simp only [epochWindow, List.mem_cons, List.not_mem_nil, or_false,
    ← UInt64.toNat_inj, saturatingSub_toNat, saturatingAdd_toNat, one]
  omega

theorem self_mem_epochWindow (epoch : Epoch) : epoch ∈ epochWindow epoch := by
  simp [epochWindow]

/-- Times at most `len` apart fall into quotients at most one apart. -/
theorem div_le_div_succ {early late len : Nat} (positive : 0 < len)
    (within : late ≤ early + len) : late / len ≤ early / len + 1 := by
  calc late / len ≤ (early + len) / len := Nat.div_le_div_right within
    _ = early / len + 1 := Nat.add_div_right early positive

theorem epochAt_mem_epochWindow (epochLen : Duration) (tc ts : UInt64)
    (within : |(tc.toNat : Int) - ts.toNat| ≤ epochSecs epochLen) :
    epochAt tc epochLen ∈ epochWindow (epochAt ts epochLen) := by
  obtain ⟨behind, ahead⟩ := abs_le.mp within
  have positive : 0 < epochSecs epochLen := Nat.lt_of_lt_of_le one_pos (Nat.le_max_left ..)
  rw [mem_epochWindow_iff, epochAt_toNat, epochAt_toNat]
  refine ⟨?_, ?_⟩
  · exact div_le_div_succ positive (by omega)
  · exact div_le_div_succ positive (by omega)

end RealityHydra.PoolEngine
