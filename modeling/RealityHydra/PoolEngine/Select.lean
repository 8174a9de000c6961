import RealityHydra.PoolEngine.Window

/-!
# Per-connection selection

The selector keeps one SNI per destination for a while.  The random value a
draw consumes is an argument.
-/

set_option autoImplicit false

namespace RealityHydra.PoolEngine

open RealityHydra.Lib.ByteCodec
open RealityHydra.Primitives

namespace F64

def neg : F64 → F64
  | nan => nan
  | infinite negative => infinite (!negative)
  | finite value => finite (-value)

def add : F64 → F64 → F64
  | finite left, finite right => finite (left + right)
  | finite _, infinite negative => infinite negative
  | infinite negative, finite _ => infinite negative
  | infinite left, infinite right => if left = right then infinite left else nan
  | _, _ => nan

def sub (left right : F64) : F64 := left.add right.neg

def mul : F64 → F64 → F64
  | finite left, finite right => finite (left * right)
  | finite value, infinite negative | infinite negative, finite value =>
      if value = 0 then nan else infinite (xor negative (value < 0))
  | infinite left, infinite right => infinite (xor left right)
  | _, _ => nan

def isNegative : F64 → Bool
  | nan => false
  | infinite negative => negative
  | finite value => value < 0

end F64

def walkWeights : F64 → List PoolEntry → Option String
  | _, [] => none
  | r, e :: rest =>
      let r := r.sub e.weight
      if r.isNegative then some e.sni else walkWeights r rest

def totalWeight (entries : List PoolEntry) : F64 :=
  entries.foldl (fun total e => total.add e.weight) (.finite 0)

/-- `random` is the uniform value in `[0, 1)`. -/
def weightedPick (pool : ActivePool) (nonempty : pool.entries ≠ []) (random : F64) :
    String :=
  -- the last entry, where the walk falls through
  (walkWeights (random.mul (totalWeight pool.entries)) pool.entries).getD
    (pool.entries.getLast nonempty).sni

structure Sticky where
  sni : String
  expiresAtMs : UInt64
  deriving DecidableEq, Repr

structure Selector where
  stickyTtlMs : UInt64
  cache : Std.TreeMap String Sticky

def Selector.new (stickyTtlMs : UInt64) : Selector := ⟨stickyTtlMs, ∅⟩

/-- The choice cached for `dest`, if it is fresh and still in the pool. -/
def Selector.cached (selector : Selector) (pool : ActivePool) (dest : String)
    (nowMs : UInt64) : Option String :=
  match selector.cache[dest]? with
  | some s => if nowMs < s.expiresAtMs && pool.contains s.sni then some s.sni else none
  | none => none

def Selector.select (selector : Selector) (pool : ActivePool) (dest : String)
    (nowMs : UInt64) (random : F64) : Option String × Selector :=
  if empty : pool.entries = [] then (none, selector)
  else
    match selector.cached pool dest nowMs with
    | some sni => (some sni, selector)
    | none =>
        let sni := weightedPick pool empty random
        let expiresAtMs := saturatingAdd nowMs selector.stickyTtlMs
        (some sni, { selector with cache := selector.cache.insert dest ⟨sni, expiresAtMs⟩ })

theorem walkWeights_mem (entries : List PoolEntry) (r : F64) (sni : String)
    (stopped : walkWeights r entries = some sni) : ∃ e ∈ entries, e.sni = sni := by
  induction entries generalizing r with
  | nil => contradiction
  | cons e rest ih =>
      simp only [walkWeights] at stopped
      split at stopped
      · exact ⟨e, by simp, Option.some.inj stopped⟩
      · obtain ⟨found, isIn, same⟩ := ih _ stopped
        exact ⟨found, List.mem_cons_of_mem e isIn, same⟩

theorem weightedPick_mem (pool : ActivePool) (nonempty : pool.entries ≠ [])
    (random : F64) : pool.contains (weightedPick pool nonempty random) = true := by
  rw [ActivePool.contains_iff]
  unfold weightedPick
  cases walked : walkWeights (random.mul (totalWeight pool.entries)) pool.entries with
  | none => exact ⟨_, List.getLast_mem nonempty, rfl⟩
  | some sni => exact walkWeights_mem _ _ _ walked

theorem Selector.select_mem (selector : Selector) (pool : ActivePool) (dest : String)
    (nowMs : UInt64) (random : F64) (sni : String)
    (picked : (selector.select pool dest nowMs random).1 = some sni) :
    pool.contains sni = true := by
  unfold Selector.select at picked
  split at picked
  · contradiction
  · rename_i nonempty
    split at picked
    · rename_i held isCached
      cases Option.some.inj picked
      unfold Selector.cached at isCached
      split at isCached
      · split at isCached
        · rename_i usable
          cases Option.some.inj isCached
          exact (Bool.and_eq_true_iff.mp usable).2
        · contradiction
      · contradiction
    · cases Option.some.inj picked
      exact weightedPick_mem pool nonempty random

theorem Selector.select_of_ne_nil (selector : Selector) {pool : ActivePool}
    (nonempty : pool.entries ≠ []) (dest : String) (nowMs : UInt64) (random : F64) :
    ∃ sni, (selector.select pool dest nowMs random).1 = some sni := by
  unfold Selector.select
  rw [dif_neg nonempty]
  cases selector.cached pool dest nowMs with
  | some sni => exact ⟨sni, rfl⟩
  | none => exact ⟨_, rfl⟩

/-- Pools are nested in `k`: raising `active_k` on one side first never makes it
refuse what the other side draws. -/
theorem pools_nested_in_k {Draw K : Type} [LinearOrder K] (keying : Keying Draw K)
    (masterSecret : Bytes) (serverSalt : Vector UInt8 saltLen) (master : MasterList)
    (epoch : Epoch) (k₁ k₂ : Nat) (smaller : k₁ ≤ k₂) :
    (keyedEpochSubset keying masterSecret serverSalt master epoch k₁).entries ⊆
        (keyedEpochSubset keying masterSecret serverSalt master epoch k₂).entries ∧
      (acceptedPoolWindow keying masterSecret serverSalt master epoch k₁).entries ⊆
        (acceptedPoolWindow keying masterSecret serverSalt master epoch k₂).entries ∧
      ∀ (selector : Selector) (dest : String) (nowMs : UInt64) (random : F64) (sni : String),
        (selector.select
            (acceptedPoolWindow keying masterSecret serverSalt master epoch k₁)
            dest nowMs random).1 = some sni ∨
          (selector.select
            (keyedEpochSubset keying masterSecret serverSalt master epoch k₁)
            dest nowMs random).1 = some sni →
        (acceptedPoolWindow keying masterSecret serverSalt master epoch k₂).contains sni =
          true := by
  have subsets : (keyedEpochSubset keying masterSecret serverSalt master epoch
      k₁).entries ⊆ (keyedEpochSubset keying masterSecret serverSalt master epoch
      k₂).entries := subsetFromSeed_mono keying master _ smaller
  have windows := acceptedPoolWindow_mono keying masterSecret serverSalt master epoch
    smaller
  refine ⟨subsets, windows, ?_⟩
  intro selector dest nowMs random sni picked
  rw [ActivePool.contains_iff]
  rcases picked with fromWindow | fromSubset
  · have held := Selector.select_mem _ _ _ _ _ _ fromWindow
    obtain ⟨e, isIn, same⟩ := (ActivePool.contains_iff ..).mp held
    exact ⟨e, windows isIn, same⟩
  · have held := Selector.select_mem _ _ _ _ _ _ fromSubset
    obtain ⟨e, isIn, same⟩ := (ActivePool.contains_iff ..).mp held
    exact ⟨e, keyedEpochSubset_subset_window keying masterSecret serverSalt master epoch
      k₂ (self_mem_epochWindow epoch) (subsets isIn), same⟩

def twoNames : MasterList where
  entries := [⟨"a.example", .finite 1⟩, ⟨"b.example", .finite 1⟩]
  acceptable := ⟨by simp, by simp, by simp [PoolEntry.Weighted], by simp⟩
  sorted := List.pairwise_pair.mpr (by decide)

/-- The first name draws the larger key in every epoch but 3. -/
def keyedApartAtThree : Keying Nat Nat where
  hmac _ message := Vector.replicate 32 (byteAt message 29)
  random seed index := if seed[0] = 3 then index else 1 - index
  aresKey draw _ := draw

def zeroSalt : Vector UInt8 saltLen := Vector.replicate saltLen 0

theorem pools_nested_one_in_two :
    (keyedEpochSubset keyedApartAtThree [] zeroSalt twoNames 3 1).entries ⊆
      (keyedEpochSubset keyedApartAtThree [] zeroSalt twoNames 3 2).entries :=
  (pools_nested_in_k keyedApartAtThree [] zeroSalt twoNames 3 1 2 (by decide)).1

end RealityHydra.PoolEngine
