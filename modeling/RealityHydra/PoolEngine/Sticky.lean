import RealityHydra.Lib.ExpiryMap
import RealityHydra.PoolEngine.Select

/-!
# Runs of the sticky selector

The specification keeps nothing but the history of calls: a destination's fresh
choice is the most recent draw made for it.  The selector's cache does the same,
also where expired entries are dropped from it.
-/

set_option autoImplicit false

namespace RealityHydra.PoolEngine

open RealityHydra.Lib.ExpiryMap
open RealityHydra.Primitives

/-- A generator as the values it will give and how many it has given. -/
structure Rng where
  values : Nat → F64
  used : Nat

def Rng.random (rng : Rng) : F64 × Rng :=
  (rng.values rng.used, { rng with used := rng.used + 1 })

@[simp] theorem Rng.values_advance (rng : Rng) (drawn : Bool) :
    (if drawn then rng.random.2 else rng).values = rng.values := by
  cases drawn with
  | false => rfl
  | true => rfl

@[simp] theorem Rng.used_advance (rng : Rng) (drawn : Bool) :
    (if drawn then rng.random.2 else rng).used = rng.used + if drawn then 1 else 0 := by
  cases drawn with
  | false => rfl
  | true => rfl

/-- `select` with the generator it draws from. -/
def Selector.selectFrom (selector : Selector) (pool : ActivePool) (dest : String)
    (nowMs : UInt64) (rng : Rng) : Option String × Selector × Rng :=
  if empty : pool.entries = [] then (none, selector, rng)
  else
    match selector.cached pool dest nowMs with
    | some sni => (some sni, selector, rng)
    | none =>
        let (random, rng) := rng.random
        let sni := weightedPick pool empty random
        let expiresAtMs := saturatingAdd nowMs selector.stickyTtlMs
        let cache := selector.cache.insert dest ⟨sni, expiresAtMs⟩
        (some sni, { selector with cache }, rng)

theorem Selector.selectFrom_eq_select (selector : Selector) (pool : ActivePool) (dest : String)
    (nowMs : UInt64) (rng : Rng) :
    ((selector.selectFrom pool dest nowMs rng).1, (selector.selectFrom pool dest nowMs rng).2.1) =
      selector.select pool dest nowMs (rng.values rng.used) := by
  unfold Selector.selectFrom Selector.select
  split
  · rfl
  · cases selector.cached pool dest nowMs with
    | some sni => rfl
    | none => rfl

def Selector.evictExpired (selector : Selector) (nowMs : UInt64) : Selector :=
  { selector with cache := selector.cache.filter fun _ s => nowMs < s.expiresAtMs }

inductive SelectorCall where
  | select (pool : ActivePool) (dest : String) (nowMs : UInt64)
  | evictExpired (nowMs : UInt64)

def SelectorCall.nowMs : SelectorCall → UInt64
  | select _ _ nowMs => nowMs
  | evictExpired nowMs => nowMs

def SelectorCall.isSelect : SelectorCall → Bool
  | select _ _ _ => true
  | evictExpired _ => false

def SelectorCall.isFor (dest : String) : SelectorCall → Bool
  | select _ other _ => other = dest
  | evictExpired _ => false

/-- What a `select` call answered, and the random value it drew for it. -/
structure Selection where
  dest : String
  nowMs : UInt64
  result : Option String
  drawn : Option F64

def Selector.run (selector : Selector) (rng : Rng) : List SelectorCall → List Selection
  | [] => []
  | .evictExpired nowMs :: rest => (selector.evictExpired nowMs).run rng rest
  | .select pool dest nowMs :: rest =>
      let (result, selector, later) := selector.selectFrom pool dest nowMs rng
      let drawn := if later.used = rng.used then none else some (rng.values rng.used)
      ⟨dest, nowMs, result, drawn⟩ :: selector.run later rest

section Specification

variable (stickyTtlMs : UInt64)

/-- The most recent draw for `dest`; the history begins with the latest call. -/
def lastDraw (history : List Selection) (dest : String) : Option Selection :=
  history.find? fun past => past.dest = dest && past.drawn.isSome

def Selection.FreshIn (past : Selection) (pool : ActivePool) (nowMs : UInt64) : Prop :=
  nowMs < saturatingAdd past.nowMs stickyTtlMs ∧ past.result.any pool.contains = true

instance (past : Selection) (pool : ActivePool) (nowMs : UInt64) :
    Decidable (past.FreshIn stickyTtlMs pool nowMs) :=
  inferInstanceAs (Decidable (_ ∧ _))

/-- What `select` is to answer after this history, `random` being the next value. -/
def specSelect (history : List Selection) (pool : ActivePool) (dest : String)
    (nowMs : UInt64) (random : F64) : Selection :=
  if empty : pool.entries = [] then ⟨dest, nowMs, none, none⟩
  else
    match (lastDraw history dest).filter (·.FreshIn stickyTtlMs pool nowMs) with
    | some past => ⟨dest, nowMs, past.result, none⟩
    | none => ⟨dest, nowMs, some (weightedPick pool empty random), some random⟩

def specRun (history : List Selection) (rng : Rng) : List SelectorCall → List Selection
  | [] => []
  | .evictExpired _ :: rest => specRun history rng rest
  | .select pool dest nowMs :: rest =>
      let selection := specSelect stickyTtlMs history pool dest nowMs (rng.values rng.used)
      let later := if selection.drawn.isSome then rng.random.2 else rng
      selection :: specRun (selection :: history) later rest

/-- What the cache is to hold of the last draw. -/
def drawnSticky (history : List Selection) (dest : String) : Option Sticky :=
  (lastDraw history dest).bind fun past =>
    past.result.map fun sni => ⟨sni, saturatingAdd past.nowMs stickyTtlMs⟩

/-- From `clock` on, the cache answers as the history does. -/
structure Remembers (clock : UInt64) (selector : Selector) (history : List Selection) :
    Prop where
  ttl : selector.stickyTtlMs = stickyTtlMs
  fresh : ∀ dest now, clock ≤ now →
    freshAt (·.expiresAtMs) selector.cache dest now =
      (drawnSticky stickyTtlMs history dest).filter fun s => now < s.expiresAtMs

variable (history : List Selection) (pool : ActivePool) (dest : String) (nowMs : UInt64)
  (random : F64)

/-- What is drawn is the next value. -/
theorem specSelect_shape :
    ∃ result drawn, specSelect stickyTtlMs history pool dest nowMs random =
      ⟨dest, nowMs, result, drawn⟩ ∧ (drawn = none ∨ drawn = some random) := by
  unfold specSelect
  split
  · exact ⟨none, none, rfl, Or.inl rfl⟩
  · split
    · exact ⟨_, none, rfl, Or.inl rfl⟩
    · exact ⟨_, some random, rfl, Or.inr rfl⟩

variable {stickyTtlMs history pool dest nowMs random}

theorem specSelect_congr {other : List Selection}
    (sameDraw : lastDraw history dest = lastDraw other dest) :
    specSelect stickyTtlMs history pool dest nowMs random =
      specSelect stickyTtlMs other pool dest nowMs random := by
  rw [specSelect, specSelect, sameDraw]

/-- A call that draws nothing would answer the same on any value. -/
theorem specSelect_of_held
    (held : (specSelect stickyTtlMs history pool dest nowMs random).drawn = none) (value : F64) :
    specSelect stickyTtlMs history pool dest nowMs value =
      specSelect stickyTtlMs history pool dest nowMs random := by
  unfold specSelect at held ⊢
  split
  · rfl
  · rename_i nonempty
    rw [dif_neg nonempty] at held
    cases fresh : (lastDraw history dest).filter (·.FreshIn stickyTtlMs pool nowMs) with
    | some past => rfl
    | none =>
        rw [fresh] at held
        contradiction

theorem specRun_filter_isSelect (calls : List SelectorCall) (history : List Selection)
    (rng : Rng) :
    specRun stickyTtlMs history rng (calls.filter SelectorCall.isSelect) =
      specRun stickyTtlMs history rng calls := by
  induction calls generalizing history rng with
  | nil => rfl
  | cons call rest ih =>
      cases call with
      | evictExpired nowMs => exact ih history rng
      | select pool dest nowMs =>
          rw [List.filter_cons_of_pos rfl, specRun, specRun, ih]

theorem lastDraw_cons_of_drawn (selection : Selection) (drawn : selection.drawn.isSome) :
    lastDraw (selection :: history) selection.dest = some selection := by
  simp [lastDraw, drawn]

theorem lastDraw_cons_of_not {selection : Selection}
    (not : selection.dest ≠ dest ∨ selection.drawn = none) :
    lastDraw (selection :: history) dest = lastDraw history dest := by
  rcases not with other | held
  · simp [lastDraw, other]
  · simp [lastDraw, held]

theorem lastDraw_cons_congr {other : List Selection} (selection : Selection)
    (sameDraw : lastDraw history dest = lastDraw other dest) :
    lastDraw (selection :: history) dest = lastDraw (selection :: other) dest := by
  unfold lastDraw at *
  rw [List.find?_cons, List.find?_cons, sameDraw]

/-- The values a destination's own calls have drawn, in order. -/
def drawnFor (dest : String) (selections : List Selection) : List F64 :=
  (selections.filter (·.dest = dest)).filterMap (·.drawn)

/-- Without the other destinations' calls, a destination is answered the same,
given the values its own calls drew. -/
theorem specRun_own (calls : List SelectorCall) (history own : List Selection) (rng alone : Rng)
    (sameDraw : lastDraw history dest = lastDraw own dest)
    (sameValues : ∀ k value, (drawnFor dest (specRun stickyTtlMs history rng calls))[k]? =
      some value → alone.values (alone.used + k) = value) :
    specRun stickyTtlMs own alone (calls.filter (·.isFor dest)) =
      (specRun stickyTtlMs history rng calls).filter (·.dest = dest) := by
  induction calls generalizing history own rng alone with
  | nil => rfl
  | cons call rest ih =>
      cases call with
      | evictExpired nowMs => exact ih history own rng alone sameDraw sameValues
      | select pool other nowMs =>
          obtain ⟨result, drawn, shape, values⟩ :=
            specSelect_shape stickyTtlMs history pool other nowMs (rng.values rng.used)
          rw [specRun, shape] at sameValues ⊢
          by_cases same : other = dest
          · subst same
            rw [List.filter_cons_of_pos (by simp [SelectorCall.isFor]),
              List.filter_cons_of_pos (by simp), specRun, ← specSelect_congr sameDraw]
            have answered : specSelect stickyTtlMs history pool other nowMs
                (alone.values alone.used) = ⟨other, nowMs, result, drawn⟩ := by
              rcases values with rfl | rfl
              · rw [specSelect_of_held (by rw [shape]), shape]
              · have first := sameValues 0 (rng.values rng.used) (by simp [drawnFor])
                rw [← shape, ← first, Nat.add_zero]
            rw [answered, ih]
            · exact lastDraw_cons_congr _ sameDraw
            · intro k value drewValue
              simp only [Rng.values_advance, Rng.used_advance]
              cases drawn with
              | none =>
                  apply sameValues
                  simpa [drawnFor] using drewValue
              | some first =>
                  rw [Nat.add_assoc, Nat.add_comm _ k]
                  apply sameValues
                  simpa [drawnFor] using drewValue
          · rw [List.filter_cons_of_neg (by simp [SelectorCall.isFor, same]),
              List.filter_cons_of_neg (by simp [same])]
            apply ih
            · rw [lastDraw_cons_of_not (Or.inl same), sameDraw]
            · intro k value drewValue
              apply sameValues
              rw [drawnFor, List.filter_cons_of_neg (by simp [same])]
              exact drewValue

theorem specRun_append_select (calls : List SelectorCall) (history : List Selection)
    (rng : Rng) :
    specRun stickyTtlMs history rng (calls ++ [.select pool dest nowMs]) =
      specRun stickyTtlMs history rng calls ++
        [specSelect stickyTtlMs ((specRun stickyTtlMs history rng calls).reverse ++ history)
          pool dest nowMs (rng.values (rng.used +
            (specRun stickyTtlMs history rng calls).countP (·.drawn.isSome)))] := by
  induction calls generalizing history rng with
  | nil => rfl
  | cons call rest ih =>
      cases call with
      | evictExpired nowMs => exact ih history rng
      | select otherPool other otherMs =>
          rw [List.cons_append, specRun, specRun, ih]
          simp only [List.cons_append, List.reverse_cons, List.append_assoc, List.nil_append,
            List.countP_cons, Rng.used_advance, Rng.values_advance]
          rw [Nat.add_assoc, Nat.add_comm (List.countP _ _)]

end Specification

section Cache

variable {stickyTtlMs clock nowMs : UInt64} {selector : Selector} {history : List Selection}
  {pool : ActivePool} {dest : String}

theorem Selector.cached_eq_some_iff {sni : String} :
    selector.cached pool dest nowMs = some sni ↔
      ∃ s, freshAt (·.expiresAtMs) selector.cache dest nowMs = some s ∧
        pool.contains s.sni = true ∧ s.sni = sni := by
  unfold Selector.cached
  simp only [freshAt_eq_some_iff]
  cases selector.cache[dest]? with
  | none => simp
  | some s => simp [and_assoc]

theorem Selector.evictExpired_cache :
    (selector.evictExpired nowMs).cache =
      Lib.ExpiryMap.evictExpired (·.expiresAtMs) selector.cache nowMs := rfl

theorem Remembers.later (remembers : Remembers stickyTtlMs clock selector history)
    (later : clock ≤ nowMs) : Remembers stickyTtlMs nowMs selector history where
  ttl := remembers.ttl
  fresh dest now ordered := remembers.fresh dest now (le_trans later ordered)

/-- A call that drew nothing is not remembered. -/
theorem Remembers.hit (remembers : Remembers stickyTtlMs clock selector history)
    {selection : Selection} (held : selection.drawn = none) :
    Remembers stickyTtlMs clock selector (selection :: history) where
  ttl := remembers.ttl
  fresh dest now ordered := by
    rw [drawnSticky, lastDraw_cons_of_not (Or.inr held)]
    exact remembers.fresh dest now ordered

theorem Remembers.evictExpired (remembers : Remembers stickyTtlMs clock selector history)
    (later : clock ≤ nowMs) :
    Remembers stickyTtlMs nowMs (selector.evictExpired nowMs) history where
  ttl := remembers.ttl
  fresh dest now ordered := by
    rw [Selector.evictExpired_cache, freshAt_evictExpired _ _ ordered]
    exact remembers.fresh dest now (le_trans later ordered)

/-- A draw is remembered for its destination, and for no other. -/
theorem Remembers.draw (remembers : Remembers stickyTtlMs clock selector history)
    (dest : String) (nowMs : UInt64) (sni : String) (random : F64) :
    Remembers stickyTtlMs clock
      { selector with
        cache := selector.cache.insert dest
          ⟨sni, saturatingAdd nowMs selector.stickyTtlMs⟩ }
      (⟨dest, nowMs, some sni, some random⟩ :: history) where
  ttl := remembers.ttl
  fresh other now ordered := by
    by_cases same : dest = other
    · subst same
      rw [drawnSticky, lastDraw_cons_of_drawn ⟨dest, nowMs, some sni, some random⟩ rfl, freshAt,
        getElem?_insert_self, remembers.ttl]
      rfl
    · rw [drawnSticky, lastDraw_cons_of_not (Or.inl same), freshAt,
        getElem?_insert_of_ne _ _ same]
      exact remembers.fresh other now ordered

/-- The cache offers what the last draw chose exactly while that is fresh. -/
theorem Remembers.cached_iff (remembers : Remembers stickyTtlMs clock selector history)
    (later : clock ≤ nowMs) {sni : String} :
    selector.cached pool dest nowMs = some sni ↔
      ∃ past, (lastDraw history dest).filter (·.FreshIn stickyTtlMs pool nowMs) = some past ∧
        past.result = some sni := by
  rw [Selector.cached_eq_some_iff, remembers.fresh dest nowMs later, drawnSticky]
  cases lastDraw history dest with
  | none => simp
  | some past =>
      cases drawn : past.result with
      | none => simp [drawn, Option.filter_eq_some_iff]
      | some held => 
          simp [drawn, Selection.FreshIn, Option.filter_eq_some_iff, and_assoc]

theorem Remembers.stale (remembers : Remembers stickyTtlMs clock selector history)
    (later : clock ≤ nowMs) (missed : selector.cached pool dest nowMs = none) :
    (lastDraw history dest).filter (·.FreshIn stickyTtlMs pool nowMs) = none := by
  cases found : (lastDraw history dest).filter (·.FreshIn stickyTtlMs pool nowMs) with
  | none => rfl
  | some past =>
      have fresh := of_decide_eq_true (Option.filter_eq_some_iff.mp found).2
      obtain ⟨sni, result, _⟩ := (Option.any_eq_true ..).mp fresh.2
      rw [(remembers.cached_iff later).mpr ⟨past, found, result⟩] at missed
      contradiction

/-- One call answers as specified, draws as specified and is remembered. -/
theorem Remembers.select (remembers : Remembers stickyTtlMs clock selector history)
    (later : clock ≤ nowMs) (rng : Rng) :
    let selection := specSelect stickyTtlMs history pool dest nowMs (rng.values rng.used)
    ∃ next, selector.selectFrom pool dest nowMs rng =
        (selection.result, next, if selection.drawn.isSome then rng.random.2 else rng) ∧
      Remembers stickyTtlMs nowMs next (selection :: history) := by
  intro selection
  have current := remembers.later later
  by_cases empty : pool.entries = []
  · have same : selection = ⟨dest, nowMs, none, none⟩ := by simp [selection, specSelect, empty]
    refine ⟨selector, ?_, current.hit (by rw [same])⟩
    simp [Selector.selectFrom, empty, same]
  · cases held : selector.cached pool dest nowMs with
    | some sni =>
        obtain ⟨past, fresh, result⟩ := (remembers.cached_iff later).mp held
        have same : selection = ⟨dest, nowMs, some sni, none⟩ := by
          simp [selection, specSelect, empty, fresh, result]
        refine ⟨selector, ?_, current.hit (by rw [same])⟩
        simp [Selector.selectFrom, empty, held, same]
    | none =>
        have stale := remembers.stale later held
        have same : selection = ⟨dest, nowMs, some (weightedPick pool empty
            (rng.values rng.used)), some (rng.values rng.used)⟩ := by
          simp [selection, specSelect, empty, stale]
        have remembered := current.draw dest nowMs
          (weightedPick pool empty (rng.values rng.used)) (rng.values rng.used)
        rw [same]
        refine ⟨_, ?_, remembered⟩
        simp [Selector.selectFrom, empty, held, Rng.random]

theorem Selector.run_eq_specRun (calls : List SelectorCall) (rng : Rng)
    (remembers : Remembers stickyTtlMs clock selector history)
    (ordered : (calls.map SelectorCall.nowMs).Pairwise (· ≤ ·))
    (later : ∀ call ∈ calls, clock ≤ call.nowMs) :
    selector.run rng calls = specRun stickyTtlMs history rng calls := by
  induction calls generalizing clock selector history rng with
  | nil => rfl
  | cons call rest ih =>
      rw [List.map_cons, List.pairwise_cons] at ordered
      have now : clock ≤ call.nowMs := later call List.mem_cons_self
      have next : ∀ other ∈ rest, call.nowMs ≤ other.nowMs :=
        fun other isIn => ordered.1 other.nowMs (List.mem_map_of_mem isIn)
      cases call with
      | evictExpired nowMs =>
          exact ih rng (remembers.evictExpired now) ordered.2 next
      | select pool dest nowMs =>
          have atNow : clock ≤ nowMs := now
          obtain ⟨kept, called, remembered⟩ := remembers.select atNow rng
          rw [Selector.run, specRun, called]
          dsimp only
          rw [ih _ remembered ordered.2 next]
          obtain ⟨result, drawn, shape, values⟩ :=
            specSelect_shape stickyTtlMs history pool dest nowMs (rng.values rng.used)
          rw [shape]
          rcases values with rfl | rfl
          · simp
          · simp [Rng.random]

theorem Selector.new_remembers (stickyTtlMs : UInt64) :
    Remembers stickyTtlMs 0 (Selector.new stickyTtlMs) [] where
  ttl := rfl
  fresh dest now _ := by
    have empty : (∅ : Std.TreeMap String Sticky)[dest]? = none :=
      Std.TreeMap.getElem?_emptyc
    rw [freshAt, Selector.new, empty]
    rfl

theorem Selector.run_new (stickyTtlMs : UInt64) (values : Nat → F64)
    (calls : List SelectorCall)
    (ordered : (calls.map SelectorCall.nowMs).Pairwise (· ≤ ·)) :
    (Selector.new stickyTtlMs).run ⟨values, 0⟩ calls =
      specRun stickyTtlMs [] ⟨values, 0⟩ calls :=
  Selector.run_eq_specRun calls _ (Selector.new_remembers stickyTtlMs) ordered
    fun _ _ => UInt64.zero_le

end Cache

/-- What the specification says of one call: what it answers, and when it draws. -/
structure Specified (stickyTtlMs : UInt64) (history : List Selection) (pool : ActivePool)
    (dest : String) (nowMs : UInt64) (random : F64) (selection : Selection) : Prop where
  isNone_iff : selection.result = none ↔ pool.entries = []
  member : ∀ sni, selection.result = some sni → pool.contains sni = true
  held_iff : pool.entries ≠ [] → (selection.drawn = none ↔
    ∃ past, lastDraw history dest = some past ∧ past.FreshIn stickyTtlMs pool nowMs)
  held : pool.entries ≠ [] → selection.drawn = none →
    ∃ past, lastDraw history dest = some past ∧ selection.result = past.result
  fresh : ∀ value, selection.drawn = some value → value = random ∧
    ∃ nonempty : pool.entries ≠ [], selection.result = some (weightedPick pool nonempty value)

theorem specSelect_specified (stickyTtlMs : UInt64) (history : List Selection)
    (pool : ActivePool) (dest : String) (nowMs : UInt64) (random : F64) :
    Specified stickyTtlMs history pool dest nowMs random
      (specSelect stickyTtlMs history pool dest nowMs random) := by
  by_cases empty : pool.entries = []
  · have shape : specSelect stickyTtlMs history pool dest nowMs random =
        ⟨dest, nowMs, none, none⟩ := by simp [specSelect, empty]
    rw [shape]
    exact ⟨by simp [empty], by simp, fun nonempty => absurd empty nonempty,
      fun nonempty => absurd empty nonempty, by simp⟩
  · cases drawn : (lastDraw history dest).filter (·.FreshIn stickyTtlMs pool nowMs) with
    | some past =>
        obtain ⟨last, fresh⟩ := Option.filter_eq_some_iff.mp drawn
        have isFresh := of_decide_eq_true fresh
        obtain ⟨sni, result, contained⟩ := (Option.any_eq_true ..).mp isFresh.2
        have shape : specSelect stickyTtlMs history pool dest nowMs random =
            ⟨dest, nowMs, some sni, none⟩ := by simp [specSelect, empty, drawn, result]
        rw [shape]
        refine ⟨by simp [empty], ?_, ?_, ?_, by simp⟩
        · intro other same
          cases same
          exact contained
        · exact fun _ => iff_of_true rfl ⟨past, last, isFresh⟩
        · exact fun _ _ => ⟨past, last, result.symm⟩
    | none =>
        have shape : specSelect stickyTtlMs history pool dest nowMs random =
            ⟨dest, nowMs, some (weightedPick pool empty random), some random⟩ := by
          simp [specSelect, empty, drawn]
        rw [shape]
        refine ⟨by simp [empty], ?_, ?_, by simp, ?_⟩
        · intro sni same
          cases same
          exact weightedPick_mem pool empty random
        · intro _
          refine iff_of_false (by simp) ?_
          rintro ⟨past, last, isFresh⟩
          rw [last, Option.filter_some, if_pos (decide_eq_true isFresh)] at drawn
          contradiction
        · intro value same
          cases same
          exact ⟨rfl, empty, rfl⟩

/-- Every `select` of a run answers as specified from the calls before it; runs
that differ in evictions only agree, and a destination's answers depend on its
own calls and draws only. -/
theorem selector_refines_sticky_spec (stickyTtlMs : UInt64) (values : Nat → F64)
    (calls : List SelectorCall)
    (ordered : (calls.map SelectorCall.nowMs).Pairwise (· ≤ ·)) :
    let selector := Selector.new stickyTtlMs
    let past := selector.run ⟨values, 0⟩ calls
    (∀ pool dest nowMs, (∀ call ∈ calls, call.nowMs ≤ nowMs) →
      ∃ selection,
        selector.run ⟨values, 0⟩ (calls ++ [.select pool dest nowMs]) = past ++ [selection] ∧
        Specified stickyTtlMs past.reverse pool dest nowMs
          (values (past.countP (·.drawn.isSome))) selection) ∧
    (∀ others, (others.map SelectorCall.nowMs).Pairwise (· ≤ ·) →
      others.filter SelectorCall.isSelect = calls.filter SelectorCall.isSelect →
      selector.run ⟨values, 0⟩ others = past) ∧
    ∀ dest alone,
      (∀ k value, (drawnFor dest past)[k]? = some value → alone k = value) →
      selector.run ⟨alone, 0⟩ (calls.filter (·.isFor dest)) =
        past.filter (·.dest = dest) := by
  intro selector past
  have isSpec : past = specRun stickyTtlMs [] ⟨values, 0⟩ calls :=
    Selector.run_new stickyTtlMs values calls ordered
  refine ⟨?_, ?_, ?_⟩
  · intro pool dest nowMs latest
    have stillOrdered : ((calls ++ [SelectorCall.select pool dest nowMs]).map
        SelectorCall.nowMs).Pairwise (· ≤ ·) := by
      rw [List.map_append, List.pairwise_append]
      refine ⟨ordered, List.pairwise_singleton .., ?_⟩
      intro earlier isIn last isLast
      obtain ⟨call, isCall, rfl⟩ := List.mem_map.mp isIn
      rw [List.mem_singleton.mp isLast]
      exact latest call isCall
    refine ⟨_, ?_, specSelect_specified stickyTtlMs past.reverse pool dest nowMs _⟩
    rw [Selector.run_new _ _ _ stillOrdered, specRun_append_select, isSpec, List.append_nil,
      Nat.zero_add]
  · intro others othersOrdered sameSelects
    rw [Selector.run_new _ _ _ othersOrdered, isSpec, ← specRun_filter_isSelect others,
      sameSelects, specRun_filter_isSelect]
  · intro dest alone sameValues
    have ownOrdered : ((calls.filter (·.isFor dest)).map
        SelectorCall.nowMs).Pairwise (· ≤ ·) :=
      ordered.sublist (List.filter_sublist.map SelectorCall.nowMs)
    rw [isSpec] at sameValues ⊢
    rw [Selector.run_new _ _ _ ownOrdered]
    apply specRun_own calls [] [] ⟨values, 0⟩ ⟨alone, 0⟩ rfl
    intro k value drew
    rw [Nat.zero_add]
    exact sameValues k value drew

/-- Two calls within the TTL, with or without an eviction between them. -/
theorem sticky_across_eviction :
    (Selector.new 1000).run ⟨fun _ => .finite 0, 0⟩
        [.select (.fromEntries twoNames.entries) "site.example" 0,
          .select (.fromEntries twoNames.entries) "site.example" 999] =
      (Selector.new 1000).run ⟨fun _ => .finite 0, 0⟩
        [.select (.fromEntries twoNames.entries) "site.example" 0, .evictExpired 500,
          .select (.fromEntries twoNames.entries) "site.example" 999] :=
  (selector_refines_sticky_spec 1000 (fun _ => .finite 0)
    [.select (.fromEntries twoNames.entries) "site.example" 0, .evictExpired 500,
      .select (.fromEntries twoNames.entries) "site.example" 999] (by decide)).2.1 _ (by decide) rfl

end RealityHydra.PoolEngine
