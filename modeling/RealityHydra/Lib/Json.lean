import Mathlib.Data.List.Induction
import Mathlib.Data.List.Sort
import Mathlib.Data.String.Basic
import RealityHydra.Lib.Reading

/-!
# JSON documents

Values whose numbers are unsigned machine words, objects as maps kept in the
order of their keys, and the grammar of the texts that denote a value.  A codec
is lawful if it writes by the grammar and reads whatever the grammar lets it.
-/

set_option autoImplicit false

namespace RealityHydra.Lib.Json

open RealityHydra.Lib.Reading

inductive Value where
  | null
  | boolean (value : Bool)
  | number (value : UInt64)
  | string (text : String)
  | array (elements : List Value)
  | object (members : List (String × Value))

/-! ## Maps in key order -/

section Maps

variable {V : Type}

def SortedKeys (members : List (String × V)) : Prop :=
  members.Pairwise fun left right => left.1 < right.1

/-- A key already present keeps its place and loses its value. -/
def insertKey (key : String) (value : V) : List (String × V) → List (String × V)
  | [] => [(key, value)]
  | (other, held) :: rest =>
      if key < other then (key, value) :: (other, held) :: rest
      else if key = other then (key, value) :: rest
      else (other, held) :: insertKey key value rest

def ofPairs (pairs : List (String × V)) : List (String × V) :=
  pairs.foldl (fun members pair => insertKey pair.1 pair.2 members) []

theorem lookup_cons_ite (key other : String) (value : V) (rest : List (String × V)) :
    ((key, value) :: rest).lookup other = if other = key then some value else rest.lookup other := by
  by_cases same : other = key
  · rw [if_pos same, same, List.lookup_cons, BEq.rfl]
  · rw [if_neg same, List.lookup_cons, beq_false_of_ne same]

theorem lookup_insertKey (key other : String) (value : V) (members : List (String × V)) :
    (insertKey key value members).lookup other =
      if other = key then some value else members.lookup other := by
  induction members with
  | nil => exact lookup_cons_ite ..
  | cons head rest ih =>
      obtain ⟨name, held⟩ := head
      rw [insertKey]
      split
      · exact lookup_cons_ite ..
      · split
        · rename_i same
          subst same
          rw [lookup_cons_ite, lookup_cons_ite]
          split <;> rfl
        · rename_i different
          rw [lookup_cons_ite, lookup_cons_ite, ih]
          by_cases same : other = key
          · simp [same, different]
          · simp [same]

theorem mem_insertKey {key : String} {value : V} {members : List (String × V)}
    {entry : String × V} (isIn : entry ∈ insertKey key value members) :
    entry = (key, value) ∨ entry ∈ members := by
  induction members with
  | nil => exact Or.inl (List.mem_singleton.mp isIn)
  | cons head rest ih =>
      rw [insertKey] at isIn
      split at isIn
      · exact List.mem_cons.mp isIn
      · split at isIn
        · exact (List.mem_cons.mp isIn).imp_right (List.mem_cons_of_mem head)
        · rcases List.mem_cons.mp isIn with isHead | later
          · exact Or.inr (isHead ▸ List.mem_cons_self)
          · exact (ih later).imp_right (List.mem_cons_of_mem head)

theorem SortedKeys.insertKey {members : List (String × V)} (sorted : SortedKeys members)
    (key : String) (value : V) : SortedKeys (insertKey key value members) := by
  induction members with
  | nil => exact List.pairwise_singleton ..
  | cons head rest ih =>
      obtain ⟨name, held⟩ := head
      obtain ⟨above, others⟩ := List.pairwise_cons.mp sorted
      rw [Json.insertKey]
      split
      · rename_i below
        refine List.pairwise_cons.mpr ⟨?_, sorted⟩
        intro entry isIn
        rcases List.mem_cons.mp isIn with isHead | later
        · exact isHead ▸ below
        · exact lt_trans below (above entry later)
      · rename_i notBelow
        split
        · rename_i same
          subst same
          exact List.pairwise_cons.mpr ⟨above, others⟩
        · rename_i different
          refine List.pairwise_cons.mpr ⟨?_, ih others⟩
          intro entry isIn
          rcases mem_insertKey isIn with isNew | later
          · rw [isNew]
            exact lt_of_le_of_ne (not_lt.mp notBelow) (Ne.symm different)
          · exact above entry later

theorem ofPairs_concat (pairs : List (String × V)) (key : String) (value : V) :
    ofPairs (pairs ++ [(key, value)]) = insertKey key value (ofPairs pairs) :=
  List.foldl_concat ..

theorem sortedKeys_ofPairs (pairs : List (String × V)) : SortedKeys (ofPairs pairs) := by
  induction pairs using List.reverseRecOn with
  | nil => exact List.Pairwise.nil
  | append_singleton pairs pair ih =>
      obtain ⟨key, value⟩ := pair
      rw [ofPairs_concat]
      exact ih.insertKey key value

theorem mem_of_mem_ofPairs {pairs : List (String × V)} {entry : String × V}
    (isIn : entry ∈ ofPairs pairs) : entry ∈ pairs := by
  induction pairs using List.reverseRecOn with
  | nil => exact isIn
  | append_singleton pairs pair ih =>
      obtain ⟨key, value⟩ := pair
      rw [ofPairs_concat] at isIn
      rcases mem_insertKey isIn with isLast | early
      · exact List.mem_append_right pairs (List.mem_singleton.mpr isLast)
      · exact List.mem_append_left _ (ih early)

/-- Of pairs with one key the last counts. -/
theorem lookup_ofPairs (key : String) (pairs : List (String × V)) :
    (ofPairs pairs).lookup key = pairs.reverse.lookup key := by
  induction pairs using List.reverseRecOn with
  | nil => rfl
  | append_singleton pairs pair ih =>
      obtain ⟨name, value⟩ := pair
      rw [ofPairs_concat, lookup_insertKey, ih, List.reverse_append, List.reverse_singleton,
        List.singleton_append, lookup_cons_ite]

theorem insertKey_above {key : String} {members : List (String × V)} (value : V)
    (above : ∀ entry ∈ members, entry.1 < key) :
    insertKey key value members = members ++ [(key, value)] := by
  induction members with
  | nil => rfl
  | cons head rest ih =>
      obtain ⟨below, others⟩ := List.forall_mem_cons.mp above
      rw [insertKey, if_neg (not_lt.mpr below.le), if_neg below.ne', ih others]
      rfl

theorem ofPairs_eq_self {pairs : List (String × V)} (sorted : SortedKeys pairs) :
    ofPairs pairs = pairs := by
  induction pairs using List.reverseRecOn with
  | nil => rfl
  | append_singleton pairs pair ih =>
      obtain ⟨key, value⟩ := pair
      obtain ⟨front, _, across⟩ := List.pairwise_append.mp sorted
      rw [ofPairs_concat, ih front, insertKey_above value]
      exact fun entry isIn => across entry isIn _ List.mem_cons_self

end Maps

/-! ## Values -/

namespace Value

/-- `json!` of an object. -/
def ofFields (fields : List (String × Value)) : Value := .object (ofPairs fields)

def ofStrings (texts : List String) : Value := .array (texts.map .string)

/-- Indexing by a key, which yields `null` where there is none. -/
def index (key : String) : Value → Value
  | .object members => (members.lookup key).getD .null
  | _ => .null

def asStr : Value → Option String
  | .string text => some text
  | _ => none

/-- The strings of an array of nothing else. -/
def asStrings : Value → Option (List String)
  | .array elements => elements.mapM asStr
  | _ => none

theorem index_ofFields (key : String) (fields : List (String × Value)) :
    (ofFields fields).index key = (fields.reverse.lookup key).getD .null := by
  rw [ofFields, index, lookup_ofPairs]

@[simp] theorem asStrings_ofStrings (texts : List String) :
    (ofStrings texts).asStrings = some texts := by
  rw [ofStrings, asStrings, List.mapM_map]
  induction texts with
  | nil => rfl
  | cons text rest ih => rw [List.mapM_cons, ih]; rfl

/-- A value as a map in key order holds it, with at most `limit` containers around
any part. -/
inductive Canonical : Nat → Value → Prop where
  | null {limit : Nat} : Canonical limit .null
  | boolean {limit : Nat} (value : Bool) : Canonical limit (.boolean value)
  | number {limit : Nat} (value : UInt64) : Canonical limit (.number value)
  | string {limit : Nat} (text : String) : Canonical limit (.string text)
  | array {limit : Nat} {elements : List Value}
      (each : ∀ element ∈ elements, Canonical limit element) :
      Canonical (limit + 1) (.array elements)
  | object {limit : Nat} {members : List (String × Value)} (sorted : SortedKeys members)
      (each : ∀ member ∈ members, Canonical limit member.2) :
      Canonical (limit + 1) (.object members)

theorem Canonical.ofFields {limit : Nat} {fields : List (String × Value)}
    (each : ∀ field ∈ fields, Canonical limit field.2) : Canonical (limit + 1) (ofFields fields) :=
  .object (sortedKeys_ofPairs fields) fun member isIn => each member (mem_of_mem_ofPairs isIn)

theorem Canonical.ofStrings {limit : Nat} (texts : List String) :
    Canonical (limit + 1) (ofStrings texts) := by
  refine .array ?_
  intro element isIn
  obtain ⟨text, _, rfl⟩ := List.mem_map.mp isIn
  exact .string text

end Value

/-! ## Texts that denote a value -/

def isBlank (c : Char) : Bool := c = ' ' || c = '\n' || c = '\t' || c = '\r'

def Blank (text : List Char) : Prop := ∀ c ∈ text, isBlank c = true

def shortEscapes : List (Char × Char) :=
  [('"', '"'), ('\\', '\\'), ('/', '/'), ('b', Char.ofNat 0x08), ('f', Char.ofNat 0x0C),
    ('n', '\n'), ('r', '\r'), ('t', '\t')]

/-- `text` between quotes stands for `chars`.  Surrogates are left out. -/
inductive Spells : List Char → List Char → Prop where
  | nil : Spells [] []
  | plain {c : Char} {text chars : List Char} (notControl : 0x20 ≤ c.toNat)
      (notQuote : c ≠ '"') (notSlash : c ≠ '\\') (rest : Spells text chars) :
      Spells (c :: text) (c :: chars)
  | short {letter c : Char} {text chars : List Char} (known : (letter, c) ∈ shortEscapes)
      (rest : Spells text chars) : Spells ('\\' :: letter :: text) (c :: chars)
  | unit {digits text chars : List Char} (four : digits.length = 4)
      (hex : ∀ c ∈ digits, isDigit 16 c = true) (scalar : (digitsValue 16 digits).isValidChar)
      (rest : Spells text chars) :
      Spells ('\\' :: 'u' :: (digits ++ text)) (Char.ofNat (digitsValue 16 digits) :: chars)

def words : List (List Char × Value) :=
  [(['n', 'u', 'l', 'l'], .null), (['t', 'r', 'u', 'e'], .boolean true),
    (['f', 'a', 'l', 's', 'e'], .boolean false)]

inductive Item where
  | value (value : Value)
  | member (key : String) (value : Value)
  | elements (elements : List Value)
  | members (members : List (String × Value))

/-- `text` stands for the item where at most `limit` containers may be open inside it. -/
inductive Denotes : Nat → List Char → Item → Prop where
  | word {limit : Nat} {text : List Char} {value : Value} (known : (text, value) ∈ words) :
      Denotes limit text (.value value)
  | number {limit : Nat} (value : UInt64) :
      Denotes limit (Nat.toDigits 10 value.toNat) (.value (.number value))
  | string {limit : Nat} {text chars : List Char} (spells : Spells text chars) :
      Denotes limit ('"' :: (text ++ ['"'])) (.value (.string (String.ofList chars)))
  | emptyArray {limit : Nat} {space : List Char} (blank : Blank space) :
      Denotes (limit + 1) ('[' :: (space ++ [']'])) (.value (.array []))
  | array {limit : Nat} {text : List Char} {elements : List Value}
      (inner : Denotes limit text (.elements elements)) :
      Denotes (limit + 1) ('[' :: (text ++ [']'])) (.value (.array elements))
  | emptyObject {limit : Nat} {space : List Char} (blank : Blank space) :
      Denotes (limit + 1) ('{' :: (space ++ ['}'])) (.value (.object []))
  | object {limit : Nat} {text : List Char} {members : List (String × Value)}
      (inner : Denotes limit text (.members members)) :
      Denotes (limit + 1) ('{' :: (text ++ ['}'])) (.value (.object (ofPairs members)))
  | member {limit : Nat} {key between before text chars : List Char} {value : Value}
      (spells : Spells key chars) (front : Blank between) (back : Blank before)
      (inner : Denotes limit text (.value value)) :
      Denotes limit ('"' :: (key ++ '"' :: (between ++ ':' :: (before ++ text))))
        (.member (String.ofList chars) value)
  | lastElement {limit : Nat} {before text after : List Char} {value : Value}
      (front : Blank before) (back : Blank after) (inner : Denotes limit text (.value value)) :
      Denotes limit (before ++ (text ++ after)) (.elements [value])
  | moreElements {limit : Nat} {before text after later : List Char} {value : Value}
      {elements : List Value} (front : Blank before) (back : Blank after)
      (inner : Denotes limit text (.value value)) (rest : Denotes limit later (.elements elements)) :
      Denotes limit (before ++ (text ++ (after ++ ',' :: later))) (.elements (value :: elements))
  | lastMember {limit : Nat} {before text after : List Char} {key : String} {value : Value}
      (front : Blank before) (back : Blank after)
      (inner : Denotes limit text (.member key value)) :
      Denotes limit (before ++ (text ++ after)) (.members [(key, value)])
  | moreMembers {limit : Nat} {before text after later : List Char} {key : String}
      {value : Value} {members : List (String × Value)} (front : Blank before) (back : Blank after)
      (inner : Denotes limit text (.member key value))
      (rest : Denotes limit later (.members members)) :
      Denotes limit (before ++ (text ++ (after ++ ',' :: later)))
        (.members ((key, value) :: members))

/-! ## Codecs -/

/-- How many containers a parser follows into one another. -/
def nestingLimit : Nat := 127

structure Codec where
  Error : Type
  toStringPretty : Value → Except Error String
  fromStr : String → Except Error Value

structure Codec.Lawful (codec : Codec) : Prop where
  writes {limit : Nat} {value : Value} (canonical : value.Canonical limit) :
    ∃ text, codec.toStringPretty value = .ok text ∧ Denotes limit text.toList (.value value)
  reads {text : String} {value : Value}
    (denotes : Denotes nestingLimit text.toList (.value value)) :
    codec.fromStr text = .ok value

theorem Codec.Lawful.reads_written {codec : Codec} (lawful : codec.Lawful) {value : Value}
    (canonical : value.Canonical nestingLimit) :
    ∃ text, codec.toStringPretty value = .ok text ∧ codec.fromStr text = .ok value := by
  obtain ⟨text, written, denotes⟩ := lawful.writes canonical
  exact ⟨text, written, lawful.reads denotes⟩

end RealityHydra.Lib.Json
