import Mathlib.Algebra.Order.Ring.Rat
import Mathlib.Data.String.Basic
import Mathlib.Order.Compare
import RealityHydra.Lib.Base64
import RealityHydra.Lib.ComparatorSort

/-!
# Pool entries, the master list and the active pool

Weights are `f64`, idealised: a finite one is a rational number and arithmetic
on it does not round.
-/

set_option autoImplicit false

namespace RealityHydra.PoolEngine

open RealityHydra.Lib.Base64
open RealityHydra.Lib.ComparatorSort

inductive F64 where
  | nan
  | infinite (negative : Bool)
  | finite (value : ℚ)
  deriving DecidableEq, Repr

def F64.isFinite : F64 → Bool
  | .finite _ => true
  | _ => false

/-- `weight <= 0.0`; false of NaN. -/
def F64.nonPositive : F64 → Bool
  | .nan => false
  | .infinite negative => negative
  | .finite value => value ≤ 0

structure PoolEntry where
  sni : String
  weight : F64
  deriving DecidableEq, Repr

inductive PoolError where
  | emptyMasterList
  | emptySni (index : Nat)
  | invalidWeight (index : Nat) (weight : F64)
  | duplicateSni (sni : String)
  | zeroK
  | badSecretLen (expected actual : Nat)
  | badSaltLen (expected actual : Nat)
  | base64 (field : String) (source : DecodeError)
  | unsupportedFormat (found expected : String)
  | badDuration (text : String)
  | toml (source : String)
  | badRealityKeyLen (field : String) (expected actual : Nat)
  | badShortIdHex (index : Nat) (reason : String)
  | shortIdTooLong (index actual : Nat)
  | badCertPinLen (expected actual : Nat)
  deriving DecidableEq, Repr

/-- `|a, b| a.sni.cmp(&b.sni)`. -/
def bySni (a b : PoolEntry) : Ordering := compare a.sni b.sni

instance : Std.TransCmp bySni :=
  inferInstanceAs (Std.TransCmp (compareOn PoolEntry.sni))

def PoolEntry.Weighted (e : PoolEntry) : Prop := ∃ w : ℚ, e.weight = .finite w ∧ 0 < w

def SniSorted (entries : List PoolEntry) : Prop :=
  entries.Pairwise fun a b => a.sni < b.sni

/-- The list has the entries `MasterList::new` lets through. -/
structure Acceptable (entries : List PoolEntry) : Prop where
  nonempty : entries ≠ []
  named : ∀ e ∈ entries, e.sni ≠ ""
  weighted : ∀ e ∈ entries, e.Weighted
  distinct : (entries.map PoolEntry.sni).Nodup

structure MasterList where
  entries : List PoolEntry
  acceptable : Acceptable entries
  sorted : SniSorted entries

structure ActivePool where
  entries : List PoolEntry
  sorted : entries.Pairwise fun a b => (bySni a b).isLE

/-! ## Sorting by SNI -/

theorem bySni_lt_iff (a b : PoolEntry) : bySni a b = .lt ↔ a.sni < b.sni :=
  compare_lt_iff_lt

theorem bySni_eq_iff (a b : PoolEntry) : bySni a b = .eq ↔ a.sni = b.sni :=
  compare_eq_iff_eq

theorem separates_of_distinct {entries : List PoolEntry}
    (distinct : (entries.map PoolEntry.sni).Nodup) : Separates bySni entries := by
  intro a inLeft b inRight same
  exact List.inj_on_of_nodup_map distinct inLeft inRight ((bySni_eq_iff a b).mp same)

theorem sniSorted_of_sorted {entries : List PoolEntry}
    (sorted : entries.Pairwise fun a b => (bySni a b).isLE)
    (distinct : (entries.map PoolEntry.sni).Nodup) : SniSorted entries := by
  have apart : entries.Pairwise fun a b => a.sni ≠ b.sni :=
    List.pairwise_map.mp distinct
  apply (sorted.and apart).imp
  intro a b both
  obtain ⟨before, different⟩ := both
  rcases Ordering.isLE_iff_eq_lt_or_eq_eq.mp before with less | equal
  · exact (bySni_lt_iff a b).mp less
  · exact absurd ((bySni_eq_iff a b).mp equal) different

theorem SniSorted.nodup {entries : List PoolEntry} (sorted : SniSorted entries) :
    (entries.map PoolEntry.sni).Nodup :=
  List.pairwise_map.mpr (sorted.imp fun less => less.ne)

theorem SniSorted.isLE {entries : List PoolEntry} (sorted : SniSorted entries) :
    entries.Pairwise fun a b => (bySni a b).isLE :=
  sorted.imp fun less => by rw [(bySni_lt_iff ..).mpr less]; rfl

theorem MasterList.ext {first second : MasterList}
    (same : first.entries = second.entries) : first = second := by
  cases first
  cases second
  cases same
  rfl

namespace ActivePool

def fromUnsorted (entries : List PoolEntry) : ActivePool :=
  ⟨sortBy bySni entries, sortBy_sorted bySni entries⟩

def fromEntries (entries : List PoolEntry) : ActivePool := fromUnsorted entries

def snis (pool : ActivePool) : List String := pool.entries.map PoolEntry.sni

def contains (pool : ActivePool) (sni : String) : Bool :=
  pool.entries.any fun e => e.sni == sni

theorem ext {first second : ActivePool}
    (same : first.entries = second.entries) : first = second := by
  cases first
  cases second
  cases same
  rfl

@[simp] theorem mem_fromUnsorted (entries : List PoolEntry) (e : PoolEntry) :
    e ∈ (fromUnsorted entries).entries ↔ e ∈ entries :=
  mem_sortBy bySni entries e

@[simp] theorem length_fromUnsorted (entries : List PoolEntry) :
    (fromUnsorted entries).entries.length = entries.length :=
  length_sortBy bySni entries

theorem fromUnsorted_sniSorted {entries : List PoolEntry}
    (distinct : (entries.map PoolEntry.sni).Nodup) :
    SniSorted (fromUnsorted entries).entries :=
  sniSorted_of_sorted (fromUnsorted entries).sorted
    (((sortBy_perm bySni entries).map _).nodup_iff.mpr distinct)

@[simp] theorem contains_iff (pool : ActivePool) (sni : String) :
    pool.contains sni = true ↔ ∃ e ∈ pool.entries, e.sni = sni := by
  simp [contains]

end ActivePool

/-! ## Validation -/

/-- The validation loop, from entry `index` on. -/
def checkEntries : Nat → List PoolEntry → Except PoolError Unit
  | _, [] => .ok ()
  | index, e :: rest =>
      if e.sni = "" then .error (.emptySni index)
      else if !e.weight.isFinite || e.weight.nonPositive then
        .error (.invalidWeight index e.weight)
      else checkEntries (index + 1) rest

/-- `entries.windows(2)`: the first SNI equal to its successor. -/
def adjacentDuplicate : List PoolEntry → Option String
  | first :: second :: rest =>
      if first.sni = second.sni then some first.sni
      else adjacentDuplicate (second :: rest)
  | _ => none

theorem weight_passes_iff (e : PoolEntry) :
    (!e.weight.isFinite || e.weight.nonPositive) = false ↔ e.Weighted := by
  cases weight : e.weight <;>
    simp [PoolEntry.Weighted, weight, F64.isFinite, F64.nonPositive]

theorem checkEntries_ok_iff (index : Nat) (entries : List PoolEntry) :
    checkEntries index entries = .ok () ↔
      (∀ e ∈ entries, e.sni ≠ "") ∧ ∀ e ∈ entries, e.Weighted := by
  induction entries generalizing index with
  | nil => simp [checkEntries]
  | cons e rest ih =>
      have passes := weight_passes_iff e
      unfold checkEntries
      split
      · rename_i unnamed
        simp [unnamed]
      · rename_i named
        split
        · rename_i invalid
          rw [invalid] at passes
          simp [← passes]
        · rename_i valid
          have weighted := passes.mp (Bool.eq_false_iff.mpr valid)
          simp [ih, named, weighted]

/-- On a sorted list, no two neighbours are equal only if no two are. -/
theorem adjacentDuplicate_none_iff {entries : List PoolEntry}
    (sorted : entries.Pairwise fun a b => (bySni a b).isLE) :
    adjacentDuplicate entries = none ↔ SniSorted entries := by
  induction entries with
  | nil => simp [adjacentDuplicate, SniSorted]
  | cons first tail ih =>
      cases tail with
      | nil => simp [adjacentDuplicate, SniSorted]
      | cons second rest =>
          obtain ⟨before, tailSorted⟩ := List.pairwise_cons.mp sorted
          have step := ih tailSorted
          unfold adjacentDuplicate
          split
          · rename_i same
            refine ⟨?_, ?_⟩
            · intro impossible
              contradiction
            · intro strict
              exact absurd same ((List.pairwise_cons.mp strict).1 second (by simp)).ne
          · rename_i different
            rw [step]
            refine ⟨?_, ?_⟩
            · intro strict
              refine List.pairwise_cons.mpr ⟨?_, strict⟩
              have less : first.sni < second.sni := by
                rcases Ordering.isLE_iff_eq_lt_or_eq_eq.mp
                  (before second (by simp)) with less | equal
                · exact (bySni_lt_iff ..).mp less
                · exact absurd ((bySni_eq_iff ..).mp equal) different
              intro e isIn
              rcases List.mem_cons.mp isIn with rfl | later
              · exact less
              · exact less.trans ((List.pairwise_cons.mp strict).1 e later)
            · intro strict
              exact (List.pairwise_cons.mp strict).2

/-- What the checks of `MasterList::new` have established of a list. -/
theorem acceptable_of_checks {entries : List PoolEntry} (nonempty : entries ≠ [])
    (checked : checkEntries 0 entries = .ok ())
    (strict : SniSorted (sortBy bySni entries)) :
    Acceptable (sortBy bySni entries) := by
  obtain ⟨named, weighted⟩ := (checkEntries_ok_iff 0 entries).mp checked
  refine ⟨?_, ?_, ?_, strict.nodup⟩
  · intro empty
    exact nonempty (List.length_eq_zero_iff.mp (by
      rw [← length_sortBy bySni entries, empty]; rfl))
  · intro e isIn
    exact named e ((mem_sortBy ..).mp isIn)
  · intro e isIn
    exact weighted e ((mem_sortBy ..).mp isIn)

def MasterList.new (entries : List PoolEntry) : Except PoolError MasterList :=
  if empty : entries = [] then .error .emptyMasterList
  else
    match checked : checkEntries 0 entries with
    | .error rejected => .error rejected
    | .ok () =>
        match duplicate : adjacentDuplicate (sortBy bySni entries) with
        | some sni => .error (.duplicateSni sni)
        | none =>
            have strict := (adjacentDuplicate_none_iff (sortBy_sorted bySni entries)).mp
              duplicate
            .ok ⟨sortBy bySni entries, acceptable_of_checks empty checked strict, strict⟩

theorem acceptable_perm {xs ys : List PoolEntry} (same : xs.Perm ys) :
    Acceptable xs ↔ Acceptable ys := by
  suffices forward : ∀ {xs ys : List PoolEntry}, xs.Perm ys →
      Acceptable xs → Acceptable ys from ⟨forward same, forward same.symm⟩
  intro xs ys same accepted
  refine ⟨?_, ?_, ?_, (same.map _).nodup_iff.mp accepted.distinct⟩
  · intro empty
    rw [empty] at same
    exact accepted.nonempty same.eq_nil
  · intro e isIn
    exact accepted.named e (same.mem_iff.mpr isIn)
  · intro e isIn
    exact accepted.weighted e (same.mem_iff.mpr isIn)

theorem MasterList.new_ok_iff (entries : List PoolEntry) (master : MasterList) :
    MasterList.new entries = .ok master ↔
      Acceptable entries ∧ master.entries = sortBy bySni entries := by
  have shuffled := sortBy_perm bySni entries
  unfold MasterList.new
  split
  · rename_i empty
    refine ⟨?_, ?_⟩
    · intro impossible
      contradiction
    · intro accepted
      exact absurd empty accepted.1.nonempty
  · rename_i nonempty
    split
    · rename_i rejected checked
      refine ⟨?_, ?_⟩
      · intro impossible
        contradiction
      · intro accepted
        have passes := (checkEntries_ok_iff 0 entries).mpr
          ⟨accepted.1.named, accepted.1.weighted⟩
        rw [passes] at checked
        contradiction
    · rename_i checked
      split
      · rename_i sni duplicate
        refine ⟨?_, ?_⟩
        · intro impossible
          contradiction
        · intro accepted
          have strict := sniSorted_of_sorted (sortBy_sorted bySni entries)
            ((shuffled.map _).nodup_iff.mpr accepted.1.distinct)
          rw [(adjacentDuplicate_none_iff (sortBy_sorted bySni entries)).mpr strict]
            at duplicate
          contradiction
      · rename_i duplicate
        have strict := (adjacentDuplicate_none_iff (sortBy_sorted bySni entries)).mp
          duplicate
        refine ⟨?_, ?_⟩
        · intro same
          cases Except.ok.inj same
          exact ⟨(acceptable_perm shuffled).mp
            (acceptable_of_checks nonempty checked strict), rfl⟩
        · intro accepted
          exact congrArg Except.ok (MasterList.ext accepted.2.symm)

theorem MasterList.exists_of_acceptable {entries : List PoolEntry}
    (acceptable : Acceptable entries) : ∃ master, MasterList.new entries = .ok master := by
  have shuffled := sortBy_perm bySni entries
  have strict := sniSorted_of_sorted (sortBy_sorted bySni entries)
    ((shuffled.map _).nodup_iff.mpr acceptable.distinct)
  exact ⟨⟨sortBy bySni entries, (acceptable_perm shuffled).mpr acceptable, strict⟩,
    (MasterList.new_ok_iff ..).mpr ⟨acceptable, rfl⟩⟩

end RealityHydra.PoolEngine
