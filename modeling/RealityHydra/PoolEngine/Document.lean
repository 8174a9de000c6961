import RealityHydra.Lib.Toml
import RealityHydra.PoolEngine.Load

/-!
# The document of a configuration

How the fields are taken from a parsed TOML document, and loading from its text.
-/

set_option autoImplicit false

namespace RealityHydra.PoolEngine

open RealityHydra.Lib.Base64
open RealityHydra.Lib.Toml

/-! ## Values -/

def asString : Value → Option String
  | .string text => some (String.ofList text)
  | _ => none

def asUsize : Value → Option Nat
  | .integer value => if 0 ≤ value ∧ value.toNat < 2 ^ 64 then some value.toNat else none
  | _ => none

def asF64 : Value → Option F64
  | .float value => some (.finite value)
  | .infinity negative => some (.infinite negative)
  | .nan => some .nan
  | .integer value => some (.finite value)
  | _ => none

section Fields

variable {α : Type} (read : Value → Option α) (table : Table) (key : String)

def asList : Value → Option (List α)
  | .array items => items.mapM read
  | _ => none

def required : Option α := (table.lookup key.toList).bind read

/-- `#[serde(default = ...)]`. -/
def orDefault (default : α) : Option α :=
  match table.lookup key.toList with
  | none => some default
  | some value => read value

/-- `#[serde(default)]` of an `Option`. -/
def orNone : Option (Option α) := orDefault (fun value => (read value).map some) table key none

end Fields

/-! ## Structures -/

def PoolEntry.deserialize (table : Table) : Option PoolEntry := do
  let sni ← required asString table "sni"
  let weight ← required asF64 table "weight"
  some { sni, weight }

def RawReality.deserialize (table : Table) : Option RawReality := do
  let privateKey ← orNone asString table "private_key"
  let publicKey ← required asString table "public_key"
  let shortIds ← orDefault (asList asString) table "short_ids" []
  let fingerprint ← orDefault asString table "fingerprint" "chrome"
  some { privateKey, publicKey, shortIds, fingerprint }

/-- `#[derive(Deserialize)]` takes a structure's fields by name or, from an array, in
order; more values than fields are not looked at. -/
def asStruct (fields : List String) : Value → Option Table
  | .table entries => some entries
  | .array items => some ((fields.map String.toList).zip items)
  | _ => none

def asPoolEntry (value : Value) : Option PoolEntry :=
  (asStruct ["sni", "weight"] value).bind PoolEntry.deserialize

def asReality (value : Value) : Option RawReality :=
  (asStruct ["private_key", "public_key", "short_ids", "fingerprint"] value).bind
    RawReality.deserialize

theorem asPoolEntry_table (entries : Table) :
    asPoolEntry (.table entries) = PoolEntry.deserialize entries := rfl

theorem asReality_table (entries : Table) :
    asReality (.table entries) = RawReality.deserialize entries := rfl

def RawConfig.deserialize (table : Table) : Option RawConfig := do
  let masterSecret ← required asString table "master_secret"
  let serverSalt ← required asString table "server_salt"
  let poolFormat ← orDefault asString table "pool_format" expectedFormat
  let epochLen ← orDefault asString table "epoch_len" "6h"
  let activeK ← required asUsize table "active_k"
  let dest ← orNone asString table "dest"
  let coherenceCidrs ← orDefault (asList asString) table "coherence_cidrs" []
  let pool ← orDefault (asList asPoolEntry) table "pool" []
  let reality ← orNone asReality table "reality"
  let serverAddr ← orNone asString table "server_addr"
  let certPin ← orNone asString table "cert_pin"
  some
    { masterSecret, serverSalt, poolFormat, epochLen, activeK, dest, coherenceCidrs, pool,
      reality, serverAddr, certPin }

def HydraConfig.fromTomlStr (toml : Parser) (base64 : Engine) (s : String) :
    Except Stop HydraConfig :=
  match toml.parse s.toList with
  | .error source => .error (.rejected (.toml source))
  | .ok table =>
      match RawConfig.deserialize table with
      | none => .error (.rejected (.toml (toml.mismatch table)))
      | some raw => raw.intoConfig base64

theorem HydraConfig.fromTomlStr_ok_iff {toml : Parser} {base64 : Engine} {s : String}
    {cfg : HydraConfig} :
    HydraConfig.fromTomlStr toml base64 s = .ok cfg ↔
      ∃ table raw, toml.parse s.toList = .ok table ∧ RawConfig.deserialize table = some raw ∧
        raw.Loads base64 cfg := by
  rw [HydraConfig.fromTomlStr]
  split
  · rename_i source failed
    simp [failed]
  · rename_i table parsed
    split
    · rename_i mistyped
      simp [parsed, mistyped]
    · rename_i raw read
      simp [parsed, read, RawConfig.intoConfig_ok_iff]

/-! ## Fields of a written table -/

theorem lookup_toList (key name : String) (value : Value) (rest : Table) :
    List.lookup key.toList ((name.toList, value) :: rest) =
      if key = name then some value else List.lookup key.toList rest := by
  by_cases same : key = name
  · rw [if_pos same, same, List.lookup_cons, BEq.rfl]
  · have different : (key.toList == name.toList) = false :=
      beq_false_of_ne fun equal => same (String.toList_inj.mp equal)
    rw [if_neg same, List.lookup_cons, different]

theorem asList_map {α β : Type} {read : Value → Option β} {write : α → Value} {value : α → β}
    {items : List α} (reads : ∀ item ∈ items, read (write item) = some (value item)) :
    asList read (.array (items.map write)) = some (items.map value) := by
  rw [asList, List.mapM_map]
  induction items with
  | nil => rfl
  | cons item items ih =>
      have others := ih fun other isIn => reads other (List.mem_cons_of_mem item isIn)
      rw [List.mapM_cons, Function.comp_apply, reads item List.mem_cons_self, others]
      rfl

theorem asUsize_toNat (value : UInt64) : asUsize (.integer value.toNat) = some value.toNat := by
  have bound := value.toNat_lt
  rw [asUsize, if_pos ⟨by omega, by omega⟩]
  rfl

theorem orNone_of_lookup {table : Table} {key : String} {text : List Char}
    (held : table.lookup key.toList = some (.string text)) :
    orNone asString table key = some (some (String.ofList text)) := by
  simp [orNone, orDefault, held, asString]

theorem RawConfig.deserialize_dest {table : Table} {raw : RawConfig} {text : List Char}
    (read : RawConfig.deserialize table = some raw)
    (held : table.lookup "dest".toList = some (.string text)) :
    raw.dest = some (String.ofList text) := by
  obtain ⟨_, _, read⟩ := Option.bind_eq_some_iff.mp read
  obtain ⟨_, _, read⟩ := Option.bind_eq_some_iff.mp read
  obtain ⟨_, _, read⟩ := Option.bind_eq_some_iff.mp read
  obtain ⟨_, _, read⟩ := Option.bind_eq_some_iff.mp read
  obtain ⟨_, _, read⟩ := Option.bind_eq_some_iff.mp read
  obtain ⟨dest, isDest, read⟩ := Option.bind_eq_some_iff.mp read
  obtain ⟨_, _, read⟩ := Option.bind_eq_some_iff.mp read
  obtain ⟨_, _, read⟩ := Option.bind_eq_some_iff.mp read
  obtain ⟨_, _, read⟩ := Option.bind_eq_some_iff.mp read
  obtain ⟨_, _, read⟩ := Option.bind_eq_some_iff.mp read
  obtain ⟨_, _, read⟩ := Option.bind_eq_some_iff.mp read
  cases Option.some.inj read
  exact Option.some.inj (isDest.symm.trans (orNone_of_lookup held))

end RealityHydra.PoolEngine
