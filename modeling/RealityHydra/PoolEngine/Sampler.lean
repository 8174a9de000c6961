import RealityHydra.PoolEngine.Entry
import RealityHydra.PoolEngine.Epoch

/-!
# The keyed epoch subset

A-Res selection: every entry of the canonical list gets a key from its own draw
and its weight, and the `k` largest keys are kept.
-/

set_option autoImplicit false

namespace RealityHydra.PoolEngine

open RealityHydra.Lib.ByteCodec
open RealityHydra.Lib.ComparatorSort
open RealityHydra.Primitives

def saltLen : Nat := 16

abbrev Seed := Vector UInt8 32

def domainTag : Bytes := utf8Bytes "hydra-pool-v1"

def deriveSeed (hmac : HmacSha256) (masterSecret : Bytes)
    (serverSalt : Vector UInt8 saltLen) (epoch : Epoch) : Seed :=
  hmac masterSecret (domainTag ++ serverSalt.toList ++ leBytes 8 epoch.toNat)

/-- What the sampler takes from outside: the HMAC, the `index`-th `f64` of the
ChaCha20 stream of a seed, and `ln(1 - draw) / weight` in a totally ordered
type of keys. -/
structure Keying (Draw K : Type) where
  hmac : HmacSha256
  random : Seed → Nat → Draw
  aresKey : Draw → F64 → K

section Sampling

variable {Draw K : Type} (keying : Keying Draw K)

def keyedEntries (master : MasterList) (seed : Seed) : List (K × PoolEntry) :=
  master.entries.mapIdx fun index e =>
    (keying.aresKey (keying.random seed index) e.weight, e)

variable [LinearOrder K]

/-- `b.0.total_cmp(&a.0).then_with(|| a.1.sni.cmp(&b.1.sni))`. -/
def byKeyThenSni (a b : K × PoolEntry) : Ordering :=
  (compare b.1 a.1).then (compare a.2.sni b.2.sni)

def subsetFromSeed (master : MasterList) (seed : Seed) (k : Nat) : ActivePool :=
  let k := min k master.entries.length
  let chosen := (topBy byKeyThenSni k (keyedEntries keying master seed)).map Prod.snd
  ActivePool.fromUnsorted chosen

def keyedEpochSubset (masterSecret : Bytes) (serverSalt : Vector UInt8 saltLen)
    (master : MasterList) (epoch : Epoch) (k : Nat) : ActivePool :=
  let seed := deriveSeed keying.hmac masterSecret serverSalt epoch
  subsetFromSeed keying master seed k

end Sampling

/-! ## What is drawn -/

section Selection

variable {Draw K : Type} (keying : Keying Draw K)

def keyAt (master : MasterList) (seed : Seed)
    (index : Fin master.entries.length) : K :=
  keying.aresKey (keying.random seed index) (master.entries.get index).weight

theorem keyedEntries_entries (master : MasterList) (seed : Seed) :
    (keyedEntries keying master seed).map Prod.snd = master.entries := by
  apply List.ext_getElem (by simp [keyedEntries])
  intro index inKeyed inMaster
  simp [keyedEntries]

theorem mem_keyedEntries (master : MasterList) (seed : Seed)
    (index : Fin master.entries.length) :
    (keyAt keying master seed index, master.entries.get index) ∈
      keyedEntries keying master seed :=
  List.mem_mapIdx.mpr ⟨index, index.isLt, rfl⟩

/-- The canonical list determines the key an entry is drawn with. -/
theorem keyed_unique (master : MasterList) (seed : Seed)
    {first second : K × PoolEntry}
    (inFirst : first ∈ keyedEntries keying master seed)
    (inSecond : second ∈ keyedEntries keying master seed)
    (same : first.2.sni = second.2.sni) : first = second := by
  have distinct : ((keyedEntries keying master seed).map fun keyed =>
      keyed.2.sni).Nodup := by
    have snis := congrArg (List.map PoolEntry.sni)
      (keyedEntries_entries keying master seed)
    rw [List.map_map] at snis
    exact snis ▸ master.sorted.nodup
  exact List.inj_on_of_nodup_map distinct inFirst inSecond same

variable [LinearOrder K]

instance : Std.TransCmp (byKeyThenSni (K := K)) := by
  have byKey : Std.TransCmp fun a b : K × PoolEntry => compare a.1 b.1 :=
    inferInstanceAs (Std.TransCmp (compareOn Prod.fst))
  have largestFirst : Std.TransCmp fun a b : K × PoolEntry => compare b.1 a.1 :=
    Std.TransCmp.opposite
  have bySnd : Std.TransCmp fun a b : K × PoolEntry => compare a.2.sni b.2.sni :=
    inferInstanceAs
      (Std.TransCmp (compareOn fun keyed : K × PoolEntry => keyed.2.sni))
  exact inferInstanceAs (Std.TransCmp (compareLex _ _))

theorem byKeyThenSni_isLE_iff (a b : K × PoolEntry) :
    (byKeyThenSni a b).isLE ↔
      b.1 < a.1 ∨ (b.1 = a.1 ∧ a.2.sni ≤ b.2.sni) := by
  unfold byKeyThenSni
  rw [Ordering.isLE_then_iff_or, compare_lt_iff_lt, compare_eq_iff_eq,
    Ordering.isLE_iff_ne_gt, not_congr compare_gt_iff_gt, not_lt]

theorem mem_subsetFromSeed (master : MasterList) (seed : Seed) (k : Nat)
    (e : PoolEntry) :
    e ∈ (subsetFromSeed keying master seed k).entries ↔
      ∃ key, (key, e) ∈ topBy byKeyThenSni (min k master.entries.length)
        (keyedEntries keying master seed) := by
  simp [subsetFromSeed]

theorem chosen_subperm (master : MasterList) (seed : Seed) (k : Nat) :
    ((topBy byKeyThenSni k (keyedEntries keying master seed)).map Prod.snd).Subperm
      master.entries := by
  obtain ⟨arranged, same, within⟩ :=
    topBy_subperm byKeyThenSni k (keyedEntries keying master seed)
  have entries := within.map Prod.snd
  rw [keyedEntries_entries] at entries
  exact ⟨arranged.map Prod.snd, same.map _, entries⟩

/-! ## The weighted top -/

/-- `pool` is the top `k` of `master` by descending key, ties broken by SNI. -/
structure IsWeightedTop (master : MasterList) (seed : Seed) (k : Nat)
    (pool : ActivePool) : Prop where
  size : pool.entries.length = min k master.entries.length
  members : pool.entries ⊆ master.entries
  sorted : SniSorted pool.entries
  precedes : ∀ chosen unchosen : Fin master.entries.length,
    master.entries.get chosen ∈ pool.entries →
    master.entries.get unchosen ∉ pool.entries →
      keyAt keying master seed unchosen < keyAt keying master seed chosen ∨
        (keyAt keying master seed unchosen = keyAt keying master seed chosen ∧
          (master.entries.get chosen).sni < (master.entries.get unchosen).sni)

theorem subsetFromSeed_length (master : MasterList) (seed : Seed) (k : Nat) :
    (subsetFromSeed keying master seed k).entries.length =
      min k master.entries.length := by
  simp [subsetFromSeed, keyedEntries]

theorem subsetFromSeed_members (master : MasterList) (seed : Seed) (k : Nat) :
    (subsetFromSeed keying master seed k).entries ⊆ master.entries := by
  intro e isIn
  exact (chosen_subperm keying master seed _).subset
    ((ActivePool.mem_fromUnsorted _ e).mp isIn)

theorem subsetFromSeed_sorted (master : MasterList) (seed : Seed) (k : Nat) :
    SniSorted (subsetFromSeed keying master seed k).entries := by
  apply ActivePool.fromUnsorted_sniSorted
  obtain ⟨arranged, same, within⟩ := chosen_subperm keying master seed
    (min k master.entries.length)
  exact (same.map _).nodup_iff.mp ((within.map _).nodup master.sorted.nodup)

theorem subsetFromSeed_isWeightedTop (master : MasterList) (seed : Seed) (k : Nat) :
    IsWeightedTop keying master seed k (subsetFromSeed keying master seed k) := by
  refine ⟨subsetFromSeed_length keying master seed k, subsetFromSeed_members keying master seed k,
    subsetFromSeed_sorted keying master seed k, ?_⟩
  intro chosen unchosen isChosen notChosen
  obtain ⟨key, kept⟩ := (mem_subsetFromSeed keying master seed k _).mp isChosen
  have sameKeyed := keyed_unique keying master seed (topBy_subset _ _ _ kept)
    (mem_keyedEntries keying master seed chosen) rfl
  rw [sameKeyed] at kept
  have notKept : (keyAt keying master seed unchosen, master.entries.get unchosen) ∉
      topBy byKeyThenSni (min k master.entries.length)
        (keyedEntries keying master seed) :=
    fun isKept => notChosen ((mem_subsetFromSeed keying master seed k _).mpr ⟨_, isKept⟩)
  have before := topBy_precedes byKeyThenSni _ _ kept
    (mem_keyedEntries keying master seed unchosen) notKept
  rcases (byKeyThenSni_isLE_iff _ _).mp before with larger | tie
  · exact Or.inl larger
  · refine Or.inr ⟨tie.1, lt_of_le_of_ne tie.2 ?_⟩
    intro sameSni
    have same := keyed_unique keying master seed (mem_keyedEntries keying master seed chosen)
      (mem_keyedEntries keying master seed unchosen) sameSni
    exact notKept (same ▸ kept)

theorem subsetFromSeed_mono (master : MasterList) (seed : Seed) {small large : Nat}
    (smaller : small ≤ large) :
    (subsetFromSeed keying master seed small).entries ⊆
      (subsetFromSeed keying master seed large).entries := by
  intro e isIn
  obtain ⟨key, kept⟩ := (mem_subsetFromSeed keying master seed small e).mp isIn
  have clamped : min small master.entries.length ≤ min large master.entries.length := by
    omega
  exact (mem_subsetFromSeed keying master seed large e).mpr
    ⟨key, (topBy_mono byKeyThenSni clamped _).subset kept⟩

end Selection

/-- The derived pool depends only on the set of entries, and it is the weighted
top `k` of it. -/
theorem keyed_pool_agrees_without_coordination {Draw K : Type} [LinearOrder K]
    (keying : Keying Draw K) (xs ys : List PoolEntry) (shuffled : xs.Perm ys) :
    ((∃ master, MasterList.new xs = .ok master) ↔
        ∃ master, MasterList.new ys = .ok master) ∧
      ((∃ master, MasterList.new xs = .ok master) ↔
        xs ≠ [] ∧ (∀ e ∈ xs, e.sni ≠ "") ∧ (xs.map PoolEntry.sni).Nodup ∧
          ∀ e ∈ xs, ∃ w : ℚ, e.weight = .finite w ∧ 0 < w) ∧
      (∀ left right, MasterList.new xs = .ok left → MasterList.new ys = .ok right →
        left = right ∧ left.entries.Perm xs ∧
          left.entries.Pairwise (fun a b => a.sni < b.sni) ∧
          ∀ masterSecret serverSalt epoch k,
            keyedEpochSubset keying masterSecret serverSalt left epoch k =
              keyedEpochSubset keying masterSecret serverSalt right epoch k) ∧
      ∀ master seed k,
        IsWeightedTop keying master seed k (subsetFromSeed keying master seed k) := by
  have accepted : ∀ entries : List PoolEntry,
      (∃ master, MasterList.new entries = .ok master) ↔ Acceptable entries := by
    intro entries
    refine ⟨?_, ?_⟩
    · intro built
      obtain ⟨master, built⟩ := built
      exact ((MasterList.new_ok_iff entries master).mp built).1
    · intro acceptable
      have strict := sniSorted_of_sorted (sortBy_sorted bySni entries)
        (((sortBy_perm bySni entries).map _).nodup_iff.mpr acceptable.distinct)
      exact ⟨⟨sortBy bySni entries,
        (acceptable_perm (sortBy_perm bySni entries)).mpr acceptable, strict⟩,
        (MasterList.new_ok_iff ..).mpr ⟨acceptable, rfl⟩⟩
  refine ⟨?_, ?_, ?_, fun master seed k =>
    subsetFromSeed_isWeightedTop keying master seed k⟩
  · rw [accepted, accepted]
    exact acceptable_perm shuffled
  · rw [accepted]
    refine ⟨fun h => ⟨h.nonempty, h.named, h.distinct, h.weighted⟩, ?_⟩
    intro h
    obtain ⟨nonempty, named, distinct, weighted⟩ := h
    exact ⟨nonempty, named, weighted, distinct⟩
  · intro left right builtLeft builtRight
    obtain ⟨acceptable, sortedLeft⟩ := (MasterList.new_ok_iff xs left).mp builtLeft
    obtain ⟨_, sortedRight⟩ := (MasterList.new_ok_iff ys right).mp builtRight
    have agree := sortBy_eq_of_perm bySni shuffled
      (separates_of_distinct acceptable.distinct)
    have same : left = right :=
      MasterList.ext (sortedLeft.trans (agree.trans sortedRight.symm))
    refine ⟨same, sortedLeft ▸ sortBy_perm bySni xs, left.sorted, ?_⟩
    intro masterSecret serverSalt epoch k
    rw [same]

theorem keyed_pool_agrees_on_two_orders :
    ∃ master,
      MasterList.new [⟨"b.example", .finite 1⟩, ⟨"a.example", .finite 2⟩] = .ok master ∧
      MasterList.new [⟨"a.example", .finite 2⟩, ⟨"b.example", .finite 1⟩] = .ok master := by
  obtain ⟨both, accepted, agree, _⟩ := keyed_pool_agrees_without_coordination
    (⟨fun _ _ => Vector.replicate 32 0, fun _ index => index, fun draw _ => draw⟩ :
      Keying Nat Nat)
    [⟨"b.example", .finite 1⟩, ⟨"a.example", .finite 2⟩]
    [⟨"a.example", .finite 2⟩, ⟨"b.example", .finite 1⟩] (List.Perm.swap ..)
  obtain ⟨left, builtLeft⟩ := accepted.mpr ⟨by simp, by simp, by simp, by simp⟩
  obtain ⟨right, builtRight⟩ := both.mp ⟨left, builtLeft⟩
  have same := (agree left right builtLeft builtRight).1
  exact ⟨left, builtLeft, same ▸ builtRight⟩

end RealityHydra.PoolEngine
