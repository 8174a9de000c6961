import Mathlib.Order.Defs.PartialOrder
import Std.Data.TreeMap.Lemmas

/-!
# Maps whose entries expire

An entry counts until the time it expires at; expired ones may be dropped at any
time.  Dropping them changes no later answer, and an answer lasts as long as no
entry gives way to one that expires earlier.
-/

set_option autoImplicit false

namespace RealityHydra.Lib.ExpiryMap

open Std (TreeMap TransOrd LawfulEqOrd)

variable {κ α τ : Type} [Ord κ] [Preorder τ]

section Insertion

variable [TransOrd κ]

theorem getElem?_insert_self (map : TreeMap κ α) (key : κ) (value : α) :
    (map.insert key value)[key]? = some value := TreeMap.getElem?_insert_self

theorem getElem?_insert_of_ne [LawfulEqOrd κ] (map : TreeMap κ α) {key other : κ} (value : α)
    (different : key ≠ other) : (map.insert key value)[other]? = map[other]? := by
  rw [TreeMap.getElem?_insert, if_neg]
  exact fun same => different (LawfulEqOrd.eq_of_compare same)

end Insertion

section Order

/-- Every entry stays, or gives way to one that expires no earlier. -/
def Outlasts (expiry : α → τ) (before after : TreeMap κ α) : Prop :=
  ∀ (key : κ) (held : α), before[key]? = some held →
    ∃ later : α, after[key]? = some later ∧ expiry held ≤ expiry later

variable {expiry : α → τ}

theorem Outlasts.refl (map : TreeMap κ α) : Outlasts expiry map map :=
  fun _ held found => ⟨held, found, le_refl _⟩

theorem Outlasts.trans {first second third : TreeMap κ α}
    (early : Outlasts expiry first second) (late : Outlasts expiry second third) :
    Outlasts expiry first third := by
  intro key held found
  obtain ⟨middle, between, notEarlier⟩ := early key held found
  obtain ⟨last, now, notEarlierStill⟩ := late key middle between
  exact ⟨last, now, le_trans notEarlier notEarlierStill⟩

/-- A recorded value is in order exactly if what it replaces expires no later. -/
theorem outlasts_insert_iff [TransOrd κ] [LawfulEqOrd κ] (map : TreeMap κ α) (key : κ)
    (value : α) :
    Outlasts expiry map (map.insert key value) ↔
      ∀ held, map[key]? = some held → expiry held ≤ expiry value := by
  refine ⟨?_, ?_⟩
  · intro outlasts held found
    obtain ⟨later, present, notEarlier⟩ := outlasts key held found
    rw [getElem?_insert_self] at present
    cases present
    exact notEarlier
  · intro replaces other held found
    by_cases same : key = other
    · subst same
      exact ⟨value, getElem?_insert_self map key value, replaces held found⟩
    · refine ⟨held, ?_, le_refl _⟩
      rw [getElem?_insert_of_ne map value same, found]

end Order

section Freshness

variable [DecidableLT τ] (expiry : α → τ)

/-- What `key` holds, if it has not expired by `now`. -/
def freshAt (map : TreeMap κ α) (key : κ) (now : τ) : Option α :=
  map[key]?.filter fun held => now < expiry held

def evictExpired (map : TreeMap κ α) (now : τ) : TreeMap κ α :=
  map.filter fun _ held => now < expiry held

variable {expiry}

theorem freshAt_eq_some_iff {map : TreeMap κ α} {key : κ} {now : τ} {held : α} :
    freshAt expiry map key now = some held ↔ map[key]? = some held ∧ now < expiry held := by
  simp [freshAt, Option.filter_eq_some_iff]

theorem freshAt_eq_none_iff {map : TreeMap κ α} {key : κ} {now : τ} :
    freshAt expiry map key now = none ↔ ∀ held, map[key]? = some held → ¬ now < expiry held := by
  simp [freshAt, Option.filter_eq_none_iff]

/-- What was fresh still is, with what has replaced it. -/
theorem Outlasts.isSome_freshAt {before after : TreeMap κ α}
    (outlasts : Outlasts expiry before after) {key : κ} {now : τ}
    (fresh : (freshAt expiry before key now).isSome) :
    (freshAt expiry after key now).isSome := by
  obtain ⟨held, isFresh⟩ := Option.isSome_iff_exists.mp fresh
  obtain ⟨found, unexpired⟩ := freshAt_eq_some_iff.mp isFresh
  obtain ⟨later, present, notEarlier⟩ := outlasts key held found
  have still := freshAt_eq_some_iff.mpr ⟨present, lt_of_lt_of_le unexpired notEarlier⟩
  rw [still, Option.isSome_some]

variable [TransOrd κ] [LawfulEqOrd κ]

@[simp] theorem getElem?_evictExpired (map : TreeMap κ α) (key : κ) (now : τ) :
    (evictExpired expiry map now)[key]? = freshAt expiry map key now := by
  rw [evictExpired, TreeMap.getElem?_filter']
  rfl

/-- Housekeeping changes no answer from its own time on. -/
theorem freshAt_evictExpired (map : TreeMap κ α) (key : κ) {now late : τ}
    (later : now ≤ late) :
    freshAt expiry (evictExpired expiry map now) key late = freshAt expiry map key late := by
  ext held
  rw [freshAt_eq_some_iff, freshAt_eq_some_iff, getElem?_evictExpired, freshAt_eq_some_iff]
  refine ⟨?_, ?_⟩
  · intro kept
    exact ⟨kept.1.1, kept.2⟩
  · intro fresh
    exact ⟨⟨fresh.1, lt_of_le_of_lt later fresh.2⟩, fresh.2⟩

end Freshness

section Sweeping

variable {expiry : α → τ} {sweeps : List τ} {thin full : TreeMap κ α}

/-- `thin` is `full` without some of the entries that had expired when it was swept. -/
structure Swept (expiry : α → τ) (sweeps : List τ) (thin full : TreeMap κ α) : Prop where
  kept : ∀ (key : κ) (held : α), thin[key]? = some held → full[key]? = some held
  dropped : ∀ (key : κ) (held : α), full[key]? = some held →
    thin[key]? = some held ∨ ∃ sweep ∈ sweeps, ¬ sweep < expiry held

theorem Swept.refl (map : TreeMap κ α) : Swept expiry [] map map :=
  ⟨fun _ _ found => found, fun _ _ found => Or.inl found⟩

theorem Swept.freshAt [DecidableLT τ] (swept : Swept expiry sweeps thin full) (key : κ) {now : τ}
    (later : ∀ sweep ∈ sweeps, sweep ≤ now) :
    freshAt expiry thin key now = freshAt expiry full key now := by
  ext held
  rw [freshAt_eq_some_iff, freshAt_eq_some_iff]
  constructor
  · intro fresh
    exact ⟨swept.kept key held fresh.1, fresh.2⟩
  · intro fresh
    rcases swept.dropped key held fresh.1 with found | ⟨sweep, member, expired⟩
    · exact ⟨found, fresh.2⟩
    · exact absurd (lt_of_le_of_lt (later sweep member) fresh.2) expired

variable [TransOrd κ] [LawfulEqOrd κ]

theorem Swept.insert (swept : Swept expiry sweeps thin full) (key : κ) (value : α) :
    Swept expiry sweeps (thin.insert key value) (full.insert key value) := by
  constructor
  · intro other held found
    by_cases same : key = other
    · subst same
      rw [getElem?_insert_self] at found ⊢
      exact found
    · rw [getElem?_insert_of_ne _ _ same] at found ⊢
      exact swept.kept other held found
  · intro other held found
    by_cases same : key = other
    · subst same
      rw [getElem?_insert_self] at found ⊢
      exact Or.inl found
    · rw [getElem?_insert_of_ne _ _ same] at found ⊢
      exact swept.dropped other held found

theorem Swept.evictExpired [DecidableLT τ] (swept : Swept expiry sweeps thin full) (now : τ) :
    Swept expiry (sweeps ++ [now]) (evictExpired expiry thin now) full := by
  constructor
  · intro key held found
    rw [getElem?_evictExpired, freshAt_eq_some_iff] at found
    exact swept.kept key held found.1
  · intro key held found
    rw [getElem?_evictExpired, freshAt_eq_some_iff]
    rcases swept.dropped key held found with present | ⟨sweep, member, expired⟩
    · by_cases fresh : now < expiry held
      · exact Or.inl ⟨present, fresh⟩
      · exact Or.inr ⟨now, List.mem_append_right _ (List.mem_singleton_self _), fresh⟩
    · exact Or.inr ⟨sweep, List.mem_append_left _ member, expired⟩

end Sweeping

end RealityHydra.Lib.ExpiryMap
