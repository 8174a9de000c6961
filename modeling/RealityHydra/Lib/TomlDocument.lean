import RealityHydra.Lib.TomlReader

/-!
# TOML documents by their expressions

An expression takes one or more whole lines: a key/value pair under a dotted
key, a heading, or nothing.  The document's table is what its expressions build
one after the other; a path leads into the last element of an array of tables.
What an expression's lines say, and which documents define a key or table twice,
is left to a grammar.
-/

set_option autoImplicit false

namespace RealityHydra.Lib.TomlDocument

open RealityHydra.Lib.Toml (Value Table Parser isBare)

abbrev Key := List Char

inductive Expression where
  | blank
  | pair (key : Key) (more : List Key) (value : Value)
  | table (path : List Key)
  | element (path : List Key)

/-! ## Tables -/

def putKey (key : Key) (value : Value) : Table → Table
  | [] => [(key, value)]
  | (name, old) :: rest =>
      if name = key then (key, value) :: rest else (name, old) :: putKey key value rest

theorem lookup_putKey (key other : Key) (value : Value) (table : Table) :
    (putKey key value table).lookup other =
      if other = key then some value else table.lookup other := by
  induction table with
  | nil =>
      rw [putKey, List.lookup_cons]
      split
      · rename_i same
        rw [if_pos (beq_iff_eq.mp same)]
      · rename_i different
        rw [if_neg (beq_eq_false_iff_ne.mp different)]
  | cons entry rest ih =>
      obtain ⟨name, old⟩ := entry
      rw [putKey]
      by_cases same : name = key
      · rw [if_pos same, List.lookup_cons, List.lookup_cons, same]
        split <;> simp_all
      · rw [if_neg same, List.lookup_cons, List.lookup_cons, ih]
        split
        · rename_i isName
          rw [if_neg fun isKey => same ((beq_iff_eq.mp isName).symm.trans isKey)]
        · rfl

/-- The table a path goes on in, and the value it is put back as. -/
def opened : Option Value → Option (Table × (Table → Value))
  | none => some ([], .table)
  | some (.table inner) => some (inner, .table)
  | some (.array items) =>
      match items.getLast? with
      | some (.table inner) =>
          some (inner, fun later => .array (items.dropLast ++ [.table later]))
      | _ => none
  | some _ => none

theorem opened_cases {held : Option Value} {place : Table × (Table → Value)}
    (isOpen : opened held = some place) :
    (held = none ∧ place = ([], .table)) ∨
    (∃ inner, held = some (.table inner) ∧ place = (inner, .table)) ∨
    (∃ front inner, held = some (.array (front ++ [.table inner])) ∧
      place = (inner, fun later => .array (front ++ [.table later]))) := by
  cases held with
  | none =>
      cases isOpen
      exact Or.inl ⟨rfl, rfl⟩
  | some value =>
      cases value with
      | table inner =>
          cases isOpen
          exact Or.inr (Or.inl ⟨inner, rfl, rfl⟩)
      | array items =>
          rw [opened] at isOpen
          split at isOpen
          · rename_i inner isLast
            cases isOpen
            refine Or.inr (Or.inr ⟨items.dropLast, inner, ?_, rfl⟩)
            rw [List.dropLast_append_getLast? _ isLast]
          · contradiction
      | _ => contradiction

/-- The value at the end of the path is what `change` makes of the one there. -/
def update (change : Option Value → Option Value) : List Key → Table → Option Table
  | [], _ => none
  | [key], table => (change (table.lookup key)).map fun value => putKey key value table
  | key :: rest, table =>
      (opened (table.lookup key)).bind fun place =>
        (update change rest place.1).map fun inner => putKey key (place.2 inner) table

def addPair (value : Value) : Option Value → Option Value
  | none => some value
  | some _ => none

def openTable : Option Value → Option Value
  | none => some (.table [])
  | some (.table inner) => some (.table inner)
  | some _ => none

def addElement : Option Value → Option Value
  | none => some (.array [.table []])
  | some (.array items) => some (.array (items ++ [.table []]))
  | some _ => none

theorem addPair_cases {value later : Value} {held : Option Value}
    (added : addPair value held = some later) : held = none ∧ later = value := by
  cases held with
  | none =>
      cases added
      exact ⟨rfl, rfl⟩
  | some _ => contradiction

theorem openTable_cases {held : Option Value} {later : Value}
    (isOpen : openTable held = some later) :
    (held = none ∧ later = .table []) ∨ ∃ inner, held = some (.table inner) ∧ later = .table inner := by
  cases held with
  | none =>
      cases isOpen
      exact Or.inl ⟨rfl, rfl⟩
  | some value =>
      cases value with
      | table inner =>
          cases isOpen
          exact Or.inr ⟨inner, rfl, rfl⟩
      | _ => contradiction

theorem addElement_cases {held : Option Value} {later : Value}
    (added : addElement held = some later) :
    ∃ items, later = .array (items ++ [.table []]) ∧
      (held = none ∧ items = [] ∨ held = some (.array items)) := by
  cases held with
  | none =>
      cases added
      exact ⟨[], rfl, Or.inl ⟨rfl, rfl⟩⟩
  | some value =>
      cases value with
      | array items =>
          cases added
          exact ⟨items, rfl, Or.inr rfl⟩
      | _ => contradiction

theorem opened_of_openTable {held : Option Value} {later : Value}
    (isOpen : openTable held = some later) : ∃ place, opened (some later) = some place := by
  rcases openTable_cases isOpen with ⟨-, rfl⟩ | ⟨inner, -, rfl⟩
  · exact ⟨_, rfl⟩
  · exact ⟨_, rfl⟩

theorem opened_of_addElement {held : Option Value} {later : Value}
    (added : addElement held = some later) : ∃ place, opened (some later) = some place := by
  obtain ⟨items, rfl, -⟩ := addElement_cases added
  simp [opened]

/-- One key of the table gets another value. -/
theorem update_cases {change : Option Value → Option Value} {key : Key} {rest : List Key}
    {table later : Table} (updated : update change (key :: rest) table = some later) :
    ∃ value, later = putKey key value table ∧
      ((rest = [] ∧ change (table.lookup key) = some value) ∨
        ∃ place inner, rest ≠ [] ∧ opened (table.lookup key) = some place ∧
          update change rest place.1 = some inner ∧ value = place.2 inner) := by
  cases rest with
  | nil =>
      obtain ⟨value, changed, rfl⟩ := Option.map_eq_some_iff.mp updated
      exact ⟨value, rfl, Or.inl ⟨rfl, changed⟩⟩
  | cons next rest =>
      obtain ⟨place, isOpen, updated⟩ := Option.bind_eq_some_iff.mp updated
      obtain ⟨inner, inside, rfl⟩ := Option.map_eq_some_iff.mp updated
      exact ⟨_, rfl, Or.inr ⟨place, inner, List.cons_ne_nil next rest, isOpen, inside, rfl⟩⟩

theorem putKey_of_lookup {key : Key} {value : Value} {table : Table}
    (held : table.lookup key = some value) : putKey key value table = table := by
  induction table with
  | nil => contradiction
  | cons entry rest ih =>
      obtain ⟨name, old⟩ := entry
      rw [putKey]
      by_cases same : name = key
      · subst same
        rw [List.lookup_cons, BEq.rfl] at held
        cases held
        rw [if_pos rfl]
      · rw [List.lookup_cons, beq_false_of_ne (Ne.symm same)] at held
        rw [if_neg same, ih held]

/-! ### Tables that are there -/

/-- The tables on the path are there. -/
def Stands : List Key → Table → Prop
  | [], _ => True
  | key :: rest, table =>
      ∃ value place, table.lookup key = some value ∧ opened (some value) = some place ∧
        Stands rest place.1

theorem opened_back {held : Option Value} {place : Table × (Table → Value)}
    (isOpen : opened held = some place) (inner : Table) :
    ∃ back, opened (some (place.2 inner)) = some (inner, back) := by
  rcases opened_cases isOpen with ⟨-, rfl⟩ | ⟨_, -, rfl⟩ | ⟨front, _, -, rfl⟩
  · exact ⟨_, rfl⟩
  · exact ⟨_, rfl⟩
  · refine ⟨fun later => .array (front ++ [.table later]), ?_⟩
    simp [opened]

theorem stands_of_update {change : Option Value → Option Value}
    (opens : ∀ held value, change held = some value → ∃ place, opened (some value) = some place)
    {path : List Key} {table later : Table} (updated : update change path table = some later) :
    Stands path later := by
  induction path generalizing table later with
  | nil => trivial
  | cons key rest ih =>
      obtain ⟨value, rfl, ⟨rfl, changed⟩ | ⟨place, inner, -, isOpen, inside, rfl⟩⟩ :=
        update_cases updated
      · obtain ⟨place, isOpen⟩ := opens _ _ changed
        exact ⟨value, place, by rw [lookup_putKey, if_pos rfl], isOpen, trivial⟩
      · obtain ⟨back, reopens⟩ := opened_back isOpen inner
        exact ⟨_, _, by rw [lookup_putKey, if_pos rfl], reopens, ih inside⟩

theorem Stands.update {change : Option Value → Option Value} {heading path : List Key}
    {table later : Table} (stands : Stands heading table) (more : path ≠ [])
    (updated : update change (heading ++ path) table = some later) : Stands heading later := by
  induction heading generalizing table later with
  | nil => trivial
  | cons key rest ih =>
      obtain ⟨value, place, held, isOpen, stands⟩ := stands
      obtain ⟨_, rfl, ⟨done, -⟩ | ⟨found, inner, -, isFound, inside, rfl⟩⟩ := update_cases updated
      · exact absurd (List.append_eq_nil_iff.mp done).2 more
      · rw [held, isOpen] at isFound
        cases isFound
        obtain ⟨back, reopens⟩ := opened_back isOpen inner
        exact ⟨_, _, by rw [lookup_putKey, if_pos rfl], reopens, ih stands inside⟩

/-! ## Documents -/

structure Draft where
  root : Table
  heading : List Key

def Draft.say (draft : Draft) : Expression → Option Draft
  | .blank => some draft
  | .pair key more value =>
      (update (addPair value) (draft.heading ++ key :: more) draft.root).map fun root =>
        { draft with root }
  | .table path => (update openTable path draft.root).map fun root => ⟨root, path⟩
  | .element path => (update addElement path draft.root).map fun root => ⟨root, path⟩

def build (expressions : List Expression) : Option Table :=
  (expressions.foldlM Draft.say ⟨[], []⟩).map Draft.root

/-! ## Leaving out keys -/

section Hidden

variable (hidden : Key → Bool)

mutual

/-- The value without the entries under hidden keys, at any depth. -/
def strip : Value → Value
  | .array items => .array (stripItems items)
  | .table entries => .table (stripEntries entries)
  | .string text => .string text
  | .integer value => .integer value
  | .float value => .float value
  | .infinity negative => .infinity negative
  | .nan => .nan
  | .boolean value => .boolean value
  | .datetime text => .datetime text

def stripItems : List Value → List Value
  | [] => []
  | item :: rest => strip item :: stripItems rest

def stripEntries : List (Key × Value) → List (Key × Value)
  | [] => []
  | (key, value) :: rest =>
      if hidden key then stripEntries rest else (key, strip value) :: stripEntries rest

end

variable {hidden}

theorem stripItems_eq_map (items : List Value) :
    stripItems hidden items = items.map (strip hidden) := by
  induction items with
  | nil => rfl
  | cons item rest ih => rw [stripItems, ih, List.map_cons]

theorem lookup_stripEntries (key : Key) (table : Table) :
    (stripEntries hidden table).lookup key =
      if hidden key then none else (table.lookup key).map (strip hidden) := by
  induction table with
  | nil => simp [stripEntries]
  | cons entry rest ih =>
      obtain ⟨name, value⟩ := entry
      rw [stripEntries, List.lookup_cons]
      by_cases same : key = name
      · subst same
        by_cases isHidden : hidden key = true
        · rw [if_pos isHidden, ih, if_pos isHidden, if_pos isHidden]
        · rw [if_neg isHidden, if_neg isHidden, List.lookup_cons, BEq.rfl]
          rfl
      · rw [beq_false_of_ne same]
        split
        · exact ih
        · rw [List.lookup_cons, beq_false_of_ne same]
          exact ih

theorem stripEntries_putKey (key : Key) (value : Value) (table : Table) :
    stripEntries hidden (putKey key value table) =
      if hidden key then stripEntries hidden table
      else putKey key (strip hidden value) (stripEntries hidden table) := by
  induction table with
  | nil => simp [putKey, stripEntries]
  | cons entry rest ih =>
      obtain ⟨name, old⟩ := entry
      rw [putKey]
      by_cases same : name = key
      · subst same
        rw [if_pos rfl, stripEntries, stripEntries]
        split
        · rfl
        · rw [putKey, if_pos rfl]
      · rw [if_neg same, stripEntries, ih, stripEntries]
        by_cases nameHidden : hidden name = true
        · rw [if_pos nameHidden, if_pos nameHidden]
        · rw [if_neg nameHidden, if_neg nameHidden, putKey, if_neg same]
          split <;> rfl

theorem strip_eq_table {value : Value} {entries : Table}
    (same : strip hidden value = .table entries) :
    ∃ inner, value = .table inner ∧ stripEntries hidden inner = entries := by
  cases value with
  | table inner => exact ⟨inner, rfl, Value.table.inj same⟩
  | _ => contradiction

theorem strip_eq_array {value : Value} {items : List Value}
    (same : strip hidden value = .array items) :
    ∃ inner, value = .array inner ∧ stripItems hidden inner = items := by
  cases value with
  | array inner => exact ⟨inner, rfl, Value.array.inj same⟩
  | _ => contradiction

/-- Two places that are alike are opened and put back alike. -/
theorem opened_alike {first second : Option Value} {one two : Table × (Table → Value)}
    (alike : first.map (strip hidden) = second.map (strip hidden))
    (openedFirst : opened first = some one) (openedSecond : opened second = some two) :
    stripEntries hidden one.1 = stripEntries hidden two.1 ∧
      ∀ left right, stripEntries hidden left = stripEntries hidden right →
        strip hidden (one.2 left) = strip hidden (two.2 right) := by
  have tables : ∀ left right, stripEntries hidden left = stripEntries hidden right →
      strip hidden (.table left) = strip hidden (.table right) := by
    intro left right same
    rw [strip, strip, same]
  rcases opened_cases openedFirst with ⟨rfl, rfl⟩ | ⟨inner, rfl, rfl⟩ | ⟨front, inner, rfl, rfl⟩
  · have absent : second = none := Option.map_eq_none_iff.mp alike.symm
    subst absent
    cases openedSecond
    exact ⟨rfl, tables⟩
  · obtain ⟨value, rfl, isTable⟩ := Option.map_eq_some_iff.mp alike.symm
    obtain ⟨other, rfl, same⟩ := strip_eq_table isTable
    cases openedSecond
    exact ⟨same.symm, tables⟩
  · obtain ⟨value, rfl, isArray⟩ := Option.map_eq_some_iff.mp alike.symm
    obtain ⟨items, rfl, same⟩ := strip_eq_array isArray
    rcases opened_cases openedSecond with ⟨held, -⟩ | ⟨other, held, -⟩ | ⟨others, other, held, rfl⟩
    · contradiction
    · cases held
    · cases held
      rw [stripItems_eq_map, stripItems_eq_map, List.map_append, List.map_append,
        List.map_singleton, List.map_singleton] at same
      obtain ⟨sameFront, sameLast⟩ := List.append_inj' same rfl
      have sameTable := Value.table.inj (List.singleton_inj.mp sameLast)
      refine ⟨sameTable.symm, ?_⟩
      intro left right equal
      rw [strip, strip, stripItems_eq_map, stripItems_eq_map, List.map_append, List.map_append,
        sameFront, List.map_singleton, List.map_singleton, tables left right equal]

/-- A change that says the same of values that are alike. -/
def Respects (hidden : Key → Bool) (change change' : Option Value → Option Value) : Prop :=
  ∀ {first second : Option Value} {one two : Value},
    first.map (strip hidden) = second.map (strip hidden) →
      change first = some one → change' second = some two → strip hidden one = strip hidden two

theorem update_alike {change change' : Option Value → Option Value}
    (respects : Respects hidden change change') {path : List Key}
    {first second one two : Table}
    (alike : stripEntries hidden first = stripEntries hidden second)
    (updatedFirst : update change path first = some one)
    (updatedSecond : update change' path second = some two) :
    stripEntries hidden one = stripEntries hidden two := by
  induction path generalizing first second one two with
  | nil => contradiction
  | cons key rest ih =>
      have held : hidden key = false → (first.lookup key).map (strip hidden) =
          (second.lookup key).map (strip hidden) := by
        intro shown
        have looked := congrArg (List.lookup key) alike
        rw [lookup_stripEntries, lookup_stripEntries, shown] at looked
        exact looked
      obtain ⟨left, rfl, atFirst⟩ := update_cases updatedFirst
      obtain ⟨right, rfl, atSecond⟩ := update_cases updatedSecond
      have same : hidden key = false → strip hidden left = strip hidden right := by
        intro shown
        rcases atFirst with ⟨ends, changedFirst⟩ | ⟨placeFirst, _, more, openFirst, insideFirst, rfl⟩
        · rcases atSecond with ⟨-, changedSecond⟩ | ⟨_, _, more, -⟩
          · exact respects (held shown) changedFirst changedSecond
          · exact absurd ends more
        · rcases atSecond with ⟨ends, -⟩ | ⟨placeSecond, _, -, openSecond, insideSecond, rfl⟩
          · exact absurd ends more
          · obtain ⟨sameInner, sameBack⟩ := opened_alike (held shown) openFirst openSecond
            exact sameBack _ _ (ih sameInner insideFirst insideSecond)
      rw [stripEntries_putKey, stripEntries_putKey, alike]
      split
      · rfl
      · rename_i shown
        rw [same (Bool.eq_false_iff.mpr shown)]

theorem strip_back {value : Value} {place : Table × (Table → Value)}
    (isOpen : opened (some value) = some place) {inner : Table}
    (same : stripEntries hidden inner = stripEntries hidden place.1) :
    strip hidden (place.2 inner) = strip hidden value := by
  rcases opened_cases isOpen with ⟨held, -⟩ | ⟨table, held, rfl⟩ | ⟨front, table, held, rfl⟩
  · contradiction
  · cases held
    rw [strip, strip, same]
  · cases held
    rw [strip, strip, stripItems_eq_map, stripItems_eq_map, List.map_append, List.map_append,
      List.map_singleton, List.map_singleton, strip, strip, same]

/-- Under a table that is there, a hidden key changes nothing that shows. -/
theorem update_hidden {change : Option Value → Option Value} {heading rest : List Key} {key : Key}
    (isHidden : hidden key = true) {table later : Table} (stands : Stands heading table)
    (updated : update change (heading ++ key :: rest) table = some later) :
    stripEntries hidden later = stripEntries hidden table := by
  induction heading generalizing table later with
  | nil =>
      obtain ⟨value, rfl, -⟩ := update_cases updated
      rw [stripEntries_putKey, if_pos isHidden]
  | cons name heading ih =>
      obtain ⟨value, place, held, isOpen, stands⟩ := stands
      obtain ⟨_, rfl, ⟨done, -⟩ | ⟨found, inner, -, isFound, inside, rfl⟩⟩ := update_cases updated
      · exact absurd (List.append_eq_nil_iff.mp done).2 (List.cons_ne_nil key rest)
      · rw [held, isOpen] at isFound
        cases isFound
        rw [stripEntries_putKey, strip_back isOpen (ih stands inside)]
        split
        · rfl
        · rename_i shown
          refine putKey_of_lookup ?_
          rw [lookup_stripEntries, if_neg shown, held]
          rfl

/-! ### Expressions left out -/

def Expression.strip (hidden : Key → Bool) : Expression → Expression
  | .pair key more value => .pair key more (TomlDocument.strip hidden value)
  | other => other

/-- The first list is the second without some pairs under hidden keys, blank
lines aside. -/
inductive Leaves (hidden : Key → Bool) : List Expression → List Expression → Prop where
  | nil : Leaves hidden [] []
  | keep {left whole : Expression} {lefts wholes : List Expression}
      (same : left.strip hidden = whole.strip hidden) (others : Leaves hidden lefts wholes) :
      Leaves hidden (left :: lefts) (whole :: wholes)
  | dropPair {key : Key} {more : List Key} {value : Value} {lefts wholes : List Expression}
      (isHidden : hidden key = true) (others : Leaves hidden lefts wholes) :
      Leaves hidden lefts (.pair key more value :: wholes)
  | addBlank {lefts wholes : List Expression} (others : Leaves hidden lefts wholes) :
      Leaves hidden (.blank :: lefts) wholes
  | dropBlank {lefts wholes : List Expression} (others : Leaves hidden lefts wholes) :
      Leaves hidden lefts (.blank :: wholes)

structure Draft.Alike (hidden : Key → Bool) (first second : Draft) : Prop where
  heading : first.heading = second.heading
  root : stripEntries hidden first.root = stripEntries hidden second.root

theorem respects_addPair {one two : Value} (same : strip hidden one = strip hidden two) :
    Respects hidden (addPair one) (addPair two) := by
  intro first second left right _ changedFirst changedSecond
  rw [(addPair_cases changedFirst).2, (addPair_cases changedSecond).2, same]

theorem respects_openTable : Respects hidden openTable openTable := by
  intro first second one two alike changedFirst changedSecond
  rcases openTable_cases changedFirst with ⟨rfl, rfl⟩ | ⟨inner, rfl, rfl⟩
  · have absent : second = none := Option.map_eq_none_iff.mp alike.symm
    rcases openTable_cases changedSecond with ⟨-, rfl⟩ | ⟨other, held, -⟩
    · rfl
    · rw [absent] at held
      contradiction
  · rcases openTable_cases changedSecond with ⟨rfl, -⟩ | ⟨other, rfl, rfl⟩
    · contradiction
    · exact Option.some.inj alike

theorem respects_addElement : Respects hidden addElement addElement := by
  intro first second one two alike changedFirst changedSecond
  obtain ⟨items, rfl, first⟩ := addElement_cases changedFirst
  obtain ⟨others, rfl, second⟩ := addElement_cases changedSecond
  have same : stripItems hidden items = stripItems hidden others := by
    rcases first with ⟨rfl, rfl⟩ | rfl
    · rcases second with ⟨rfl, rfl⟩ | rfl
      · rfl
      · contradiction
    · rcases second with ⟨rfl, rfl⟩ | rfl
      · contradiction
      · exact Value.array.inj (Option.some.inj alike)
  rw [stripItems_eq_map, stripItems_eq_map] at same
  rw [strip, strip, stripItems_eq_map, stripItems_eq_map, List.map_append, List.map_append, same]

theorem Draft.Alike.say {first second one two : Draft} {left right : Expression}
    (alike : first.Alike hidden second) (same : left.strip hidden = right.strip hidden)
    (saidFirst : first.say left = some one) (saidSecond : second.say right = some two) :
    one.Alike hidden two := by
  cases left with
  | blank =>
      cases right with
      | blank =>
          cases saidFirst
          cases saidSecond
          exact alike
      | _ => contradiction
  | pair key more value =>
      cases right with
      | pair other others written =>
          obtain ⟨rfl, rfl, sameValue⟩ := Expression.pair.inj same
          obtain ⟨rootFirst, updatedFirst, rfl⟩ := Option.map_eq_some_iff.mp saidFirst
          obtain ⟨rootSecond, updatedSecond, rfl⟩ := Option.map_eq_some_iff.mp saidSecond
          rw [← alike.heading] at updatedSecond
          exact ⟨alike.heading, update_alike (respects_addPair sameValue) alike.root
            updatedFirst updatedSecond⟩
      | _ => contradiction
  | table path =>
      cases right with
      | table other =>
          cases same
          obtain ⟨rootFirst, updatedFirst, rfl⟩ := Option.map_eq_some_iff.mp saidFirst
          obtain ⟨rootSecond, updatedSecond, rfl⟩ := Option.map_eq_some_iff.mp saidSecond
          exact ⟨rfl, update_alike respects_openTable alike.root updatedFirst updatedSecond⟩
      | _ => contradiction
  | element path =>
      cases right with
      | element other =>
          cases same
          obtain ⟨rootFirst, updatedFirst, rfl⟩ := Option.map_eq_some_iff.mp saidFirst
          obtain ⟨rootSecond, updatedSecond, rfl⟩ := Option.map_eq_some_iff.mp saidSecond
          exact ⟨rfl, update_alike respects_addElement alike.root updatedFirst updatedSecond⟩
      | _ => contradiction

/-- The table of the heading is there when a pair is said. -/
theorem Draft.stands_say {draft next : Draft} {expression : Expression}
    (stands : Stands draft.heading draft.root) (said : draft.say expression = some next) :
    Stands next.heading next.root := by
  cases expression with
  | blank =>
      cases said
      exact stands
  | pair key more value =>
      obtain ⟨root, updated, rfl⟩ := Option.map_eq_some_iff.mp said
      exact stands.update (List.cons_ne_nil key more) updated
  | table path =>
      obtain ⟨root, updated, rfl⟩ := Option.map_eq_some_iff.mp said
      exact stands_of_update (fun _ _ => opened_of_openTable) updated
  | element path =>
      obtain ⟨root, updated, rfl⟩ := Option.map_eq_some_iff.mp said
      exact stands_of_update (fun _ _ => opened_of_addElement) updated

theorem alike_of_leaves {lefts wholes : List Expression} (leaves : Leaves hidden lefts wholes)
    {left whole leftEnd wholeEnd : Draft} (alike : left.Alike hidden whole)
    (stands : Stands whole.heading whole.root)
    (builtLeft : lefts.foldlM Draft.say left = some leftEnd)
    (builtWhole : wholes.foldlM Draft.say whole = some wholeEnd) :
    leftEnd.Alike hidden wholeEnd := by
  induction leaves generalizing left whole with
  | nil =>
      cases builtLeft
      cases builtWhole
      exact alike
  | keep same others ih =>
      rw [List.foldlM_cons] at builtLeft builtWhole
      obtain ⟨nextLeft, saidLeft, builtLeft⟩ := Option.bind_eq_some_iff.mp builtLeft
      obtain ⟨nextWhole, saidWhole, builtWhole⟩ := Option.bind_eq_some_iff.mp builtWhole
      exact ih (alike.say same saidLeft saidWhole) (Draft.stands_say stands saidWhole)
        builtLeft builtWhole
  | dropPair isHidden others ih =>
      rw [List.foldlM_cons] at builtWhole
      obtain ⟨next, said, builtWhole⟩ := Option.bind_eq_some_iff.mp builtWhole
      have standsNext := Draft.stands_say stands said
      obtain ⟨root, updated, rfl⟩ := Option.map_eq_some_iff.mp said
      have unchanged := update_hidden isHidden stands updated
      have alikeNext : left.Alike hidden { whole with root } :=
        ⟨alike.heading, alike.root.trans unchanged.symm⟩
      exact ih alikeNext standsNext builtLeft builtWhole
  | addBlank others ih => exact ih alike stands builtLeft builtWhole
  | dropBlank others ih => exact ih alike stands builtLeft builtWhole

/-- Leaving out pairs under hidden keys changes nothing that shows. -/
theorem build_leaves {lefts wholes : List Expression} {left whole : Table}
    (leaves : Leaves hidden lefts wholes) (builtLeft : build lefts = some left)
    (builtWhole : build wholes = some whole) :
    stripEntries hidden left = stripEntries hidden whole := by
  obtain ⟨leftEnd, saidLeft, rfl⟩ := Option.map_eq_some_iff.mp builtLeft
  obtain ⟨wholeEnd, saidWhole, rfl⟩ := Option.map_eq_some_iff.mp builtWhole
  have stands : Stands (Draft.heading ⟨[], []⟩) (Draft.root ⟨[], []⟩) := trivial
  exact (alike_of_leaves leaves ⟨rfl, rfl⟩ stands saidLeft saidWhole).root

end Hidden

/-! ## An entry of a table of the root -/

/-- A table may also be given by its entries' values alone, in order: an array can
stand for one with the entry. -/
def hasEntry (key : Key) : Value → Bool
  | .table entries => (entries.lookup key).isSome
  | .array _ => true
  | _ => false

/-- The expression gives the table at `outer` an entry at `inner`. -/
def Writes (outer inner : Key) (heading : List Key) : Expression → Prop
  | .blank => False
  | .pair key more value => [outer, inner] <+: heading ++ key :: more ∨
      heading ++ key :: more = [outer] ∧ hasEntry inner value = true
  | .table path => [outer, inner] <+: path
  | .element path => [outer, inner] <+: path ∨ path = [outer]

/-- What `outer` holds has an entry at `inner`. -/
def Carries (outer inner : Key) (table : Table) : Prop :=
  ∃ value, table.lookup outer = some value ∧ hasEntry inner value = true

/-- Of the values with the entry, the change makes those that had it before, and
others only if it `adds` it. -/
def Gives (inner : Key) (change : Option Value → Option Value) (adds : Prop) : Prop :=
  ∀ held value, change held = some value →
    (hasEntry inner value = true ↔ (∃ old, held = some old ∧ hasEntry inner old = true) ∨ adds)

section Entry

variable {outer inner : Key}

theorem gives_addPair (value : Value) :
    Gives inner (addPair value) (hasEntry inner value = true) := by
  intro held later added
  obtain ⟨rfl, rfl⟩ := addPair_cases added
  simp

theorem gives_openTable : Gives inner openTable False := by
  intro held later isOpen
  rcases openTable_cases isOpen with ⟨rfl, rfl⟩ | ⟨entries, rfl, rfl⟩
  · simp [hasEntry]
  · simp

theorem gives_addElement : Gives inner addElement True := by
  intro held later added
  obtain ⟨items, rfl, -⟩ := addElement_cases added
  simp [hasEntry]

theorem isSome_lookup_putKey_iff (key other : Key) (value : Value) (table : Table) :
    ((putKey key value table).lookup other).isSome ↔ other = key ∨ (table.lookup other).isSome := by
  rw [lookup_putKey]
  by_cases same : other = key <;> simp [same]

theorem carries_putKey_self (value : Value) (table : Table) :
    Carries outer inner (putKey outer value table) ↔ hasEntry inner value = true := by
  simp [Carries, lookup_putKey]

/-- A value that a path goes on in has the entry if it had it, or if the path leads
there. -/
theorem hasEntry_opened {change : Option Value → Option Value} {held : Option Value}
    {place : Table × (Table → Value)} {next : Key} {rest : List Key} {later : Table}
    (isOpen : opened held = some place)
    (updated : update change (next :: rest) place.1 = some later) :
    hasEntry inner (place.2 later) = true ↔
      (∃ old, held = some old ∧ hasEntry inner old = true) ∨ inner = next := by
  obtain ⟨value, rfl, -⟩ := update_cases updated
  rcases opened_cases isOpen with ⟨rfl, rfl⟩ | ⟨old, rfl, rfl⟩ | ⟨front, old, rfl, rfl⟩
  · rw [hasEntry, isSome_lookup_putKey_iff]
    simp
  · rw [hasEntry, isSome_lookup_putKey_iff, or_comm]
    simp [hasEntry]
  · simp [hasEntry]

theorem carries_update {change : Option Value → Option Value} {adds : Prop} {path : List Key}
    {table later : Table} (gives : Gives inner change adds)
    (updated : update change path table = some later) :
    Carries outer inner later ↔
      Carries outer inner table ∨ [outer, inner] <+: path ∨ path = [outer] ∧ adds := by
  cases path with
  | nil => contradiction
  | cons name rest =>
      obtain ⟨value, rfl, how⟩ := update_cases updated
      by_cases same : outer = name
      · subst same
        rw [carries_putKey_self]
        rcases how with ⟨rfl, changed⟩ | ⟨place, moved, more, isOpen, inside, rfl⟩
        · rw [gives _ _ changed]
          simp [Carries]
        · obtain ⟨next, others, rfl⟩ := List.exists_cons_of_ne_nil more
          rw [hasEntry_opened isOpen inside]
          simp [Carries]
      · simp [Carries, lookup_putKey, same, Ne.symm same]

end Entry

/-- The heading under which the expressions after this one stand. -/
def Expression.headingAfter (heading : List Key) : Expression → List Key
  | .table path => path
  | .element path => path
  | _ => heading

/-- One of the expressions gives the table at `outer` an entry at `inner`. -/
def SomeWrites (outer inner : Key) : List Key → List Expression → Prop
  | _, [] => False
  | heading, expression :: rest =>
      Writes outer inner heading expression ∨
        SomeWrites outer inner (expression.headingAfter heading) rest

instance (outer inner : Key) (heading : List Key) :
    DecidablePred (Writes outer inner heading)
  | .blank => inferInstanceAs (Decidable False)
  | .pair key more value => inferInstanceAs (Decidable
      ([outer, inner] <+: heading ++ key :: more ∨
        heading ++ key :: more = [outer] ∧ hasEntry inner value = true))
  | .table path => inferInstanceAs (Decidable ([outer, inner] <+: path))
  | .element path => inferInstanceAs (Decidable ([outer, inner] <+: path ∨ path = [outer]))

instance decideSomeWrites (outer inner : Key) :
    ∀ heading expressions, Decidable (SomeWrites outer inner heading expressions)
  | _, [] => inferInstanceAs (Decidable False)
  | heading, expression :: rest =>
      have := decideSomeWrites outer inner (expression.headingAfter heading) rest
      inferInstanceAs (Decidable (Writes outer inner heading expression ∨
        SomeWrites outer inner (expression.headingAfter heading) rest))

theorem Draft.say_heading {draft next : Draft} {expression : Expression}
    (said : draft.say expression = some next) :
    next.heading = expression.headingAfter draft.heading := by
  cases expression with
  | blank =>
      cases said
      rfl
  | _ =>
      obtain ⟨_, -, rfl⟩ := Option.map_eq_some_iff.mp said
      rfl

section Said

variable {outer inner : Key} {draft next : Draft} {expression : Expression}

theorem carries_say (said : draft.say expression = some next) :
    Carries outer inner next.root ↔
      Carries outer inner draft.root ∨ Writes outer inner draft.heading expression := by
  cases expression with
  | blank =>
      cases said
      simp [Writes]
  | pair key more value =>
      obtain ⟨_, updated, rfl⟩ := Option.map_eq_some_iff.mp said
      exact carries_update (gives_addPair value) updated
  | table path =>
      obtain ⟨_, updated, rfl⟩ := Option.map_eq_some_iff.mp said
      have carried : Carries outer inner _ ↔ _ := carries_update gives_openTable updated
      simpa [Writes] using carried
  | element path =>
      obtain ⟨_, updated, rfl⟩ := Option.map_eq_some_iff.mp said
      have carried : Carries outer inner _ ↔ _ := carries_update gives_addElement updated
      simpa [Writes] using carried

end Said

theorem run_carries {outer inner : Key} {expressions : List Expression} {draft last : Draft}
    (built : expressions.foldlM Draft.say draft = some last) :
    Carries outer inner last.root ↔
      Carries outer inner draft.root ∨ SomeWrites outer inner draft.heading expressions := by
  induction expressions generalizing draft with
  | nil =>
      cases built
      simp [SomeWrites]
  | cons expression rest ih =>
      rw [List.foldlM_cons] at built
      obtain ⟨next, said, built⟩ := Option.bind_eq_some_iff.mp built
      rw [ih built, carries_say said, Draft.say_heading said, SomeWrites, or_assoc]

/-- The document gives the table at `outer` an entry at `inner` exactly if one of
its expressions does. -/
theorem build_carries {outer inner : Key} {expressions : List Expression} {table : Table}
    (built : build expressions = some table) :
    Carries outer inner table ↔ SomeWrites outer inner [] expressions := by
  obtain ⟨last, said, rfl⟩ := Option.map_eq_some_iff.mp built
  rw [run_carries said]
  simp [Carries]

end RealityHydra.Lib.TomlDocument
