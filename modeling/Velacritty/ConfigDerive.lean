import Velacritty.UiConfig
import Mathlib.Data.List.FinRange
import Mathlib.Logic.Function.Basic

/-! The config types that `ConfigDeserialize` derives: how a table is deserialized, and how
the fields it gives are replaced in an existing config. -/
namespace Velacritty

namespace Toml

/-- `value.as_str()` is "none" in any case of its letters. -/
def isNone (value : Toml) : Bool :=
  value.asStr.any fun s => s.toList.map Char.toLower = ['n', 'o', 'n', 'e']

def keys (value : Toml) : List String := (value.asTable.getD []).map Prod.fst

end Toml

/-- The texts of the errors of the TOML library. -/
structure TomlErrors where
  invalidType : Toml → String → String
  inKey : String → String → String

inductive ConfigLog where
  | fieldError (field error : String)
  | unusedKey (key : String)
  | warning (message : String)
  deriving DecidableEq, Repr

/-- The text of a log entry. -/
def ConfigLog.message : ConfigLog → String
  | fieldError field error => "Config error: " ++ field ++ ": " ++ error.trimAscii.toString
  | unusedKey key => "Unused config key: " ++ key
  | warning message => message

/-- The result of deserializing, and what was logged. -/
structure Parsed (α : Type) where
  result : Except String α
  log : List ConfigLog

/-- A field of a struct, with its `#[config(…)]` attributes other than `flatten`. -/
structure ConfigField where
  name : String
  aliases : List String := []
  skip : Bool := false
  deprecated : Option (Option String) := none
  removed : Option (Option String) := none
  deriving DecidableEq, Repr

namespace ConfigField

def Named (field : ConfigField) (key : String) : Prop := key = field.name ∨ key ∈ field.aliases

instance (field : ConfigField) (key : String) : Decidable (field.Named key) := by
  unfold Named
  infer_instance

/-- Deprecation or removal message with optional attribute override. -/
def notice (field : ConfigField) (change : String) (warning : Option String) : ConfigLog :=
  .warning ("Config warning: " ++ field.name ++ " has been " ++ change ++
    (warning.elim "" fun warning => "; " ++ warning) ++
    "\nUse `velacritty migrate` to automatically resolve it")

def notices (field : ConfigField) : List ConfigLog :=
  (field.deprecated.map (field.notice "deprecated")).toList ++
    (field.removed.map (field.notice "removed")).toList

end ConfigField

/-- A type with `Deserialize` and `SerdeReplace`, and its values. What a struct derives
depends on its fields, the flattened one among them, its `Default` and their types. -/
inductive ConfigType : Type → Type 1
  | leaf {α : Type} (default : α) (deserialize : Toml → Parsed α) : ConfigType α
  | option {α : Type} (inner : ConfigType α) : ConfigType (Option α)
  | map {α : Type} (inner : ConfigType α) : ConfigType (String → Option α)
  | struct {n : Nat} {α : Fin n → Type} (fields : Fin n → ConfigField) (flatten : Option (Fin n))
      (default : ∀ i, α i) (types : ∀ i, ConfigType (α i)) : ConfigType (∀ i, α i)

section
variable {n : Nat} {α : Fin n → Type} (fields : Fin n → ConfigField) (flatten : Option (Fin n))

/-- The arm of the visitor that takes a key: the first field that is not skipped. -/
def visitArm (key : String) : Option (Fin n) :=
  (List.finRange n).find? fun i => !(fields i).skip && decide ((fields i).Named key)

/-- The arm of `replace` that takes a key: the first field that is not flattened. -/
def replaceArm (key : String) : Option (Fin n) :=
  (List.finRange n).find? fun i => decide (some i ≠ flatten) && decide ((fields i).Named key)

structure Visit (α : Fin n → Type) where
  config : ∀ i, α i
  unused : List (String × Toml)
  log : List ConfigLog

variable (noneValue : ∀ i, Option (α i)) (deserialize : ∀ i, Toml → Parsed (α i))

def visitEntry (st : Visit α) (entry : String × Toml) : Visit α :=
  match visitArm fields entry.1 with
  | none => { st with unused := st.unused ++ [entry] }
  | some i =>
      match if entry.2.isNone then noneValue i else none with
      | some value => { st with config := Function.update st.config i value }
      | none =>
          let parsed := deserialize i entry.2
          match parsed.result with
          | .ok value => { st with
              config := Function.update st.config i value
              log := st.log ++ parsed.log ++ (fields i).notices }
          | .error error => { st with
              log := st.log ++ parsed.log ++ [.fieldError (fields i).name error] ++ (fields i).notices }

/-- `visit_map`: start from the default, and deserialize the flattened field from the keys
that no other field takes. -/
def visitMap (default : ∀ i, α i) (defaults : ∀ i, α i) (entries : List (String × Toml)) :
    Parsed (∀ i, α i) :=
  let st := entries.foldl (visitEntry fields noneValue deserialize) ⟨default, [], []⟩
  match flatten with
  | none => ⟨.ok st.config, st.log ++ st.unused.map fun entry => .unusedKey entry.1⟩
  | some i =>
      let parsed := deserialize i (.table st.unused)
      let value := match parsed.result with
        | .ok value => value
        | .error _ => defaults i
      ⟨.ok (Function.update st.config i value), st.log ++ parsed.log⟩

variable (replace : ∀ i, α i → Toml → α i × Except String Unit)

/-- What an entry of the table `value` replaces. The flattened field gets the whole table. -/
def replaceTarget (value : Toml) (entry : String × Toml) : Option (Fin n × Toml) :=
  match replaceArm fields flatten entry.1 with
  | some i => some (i, entry.2)
  | none => flatten.map fun i => (i, value)

/-- Replace the entries one after the other; the first error ends it. -/
def replaceEntries (value : Toml) :
    List (String × Toml) → (∀ i, α i) → (∀ i, α i) × Except String Unit
  | [], config => (config, .ok ())
  | entry :: rest, config =>
      match replaceTarget fields flatten value entry with
      | none => (config, .error ("Field \"" ++ entry.1 ++ "\" does not exist"))
      | some (i, next) =>
          match replace i (config i) next with
          | (field, .error error) => (Function.update config i field, .error error)
          | (field, .ok ()) => replaceEntries value rest (Function.update config i field)

end

/-- The entries of a `HashMap`; the first error ends it. -/
def deserializeEntries {α : Type} (errors : TomlErrors) (deserialize : Toml → Parsed α) :
    List (String × Toml) → (String → Option α) → Parsed (String → Option α)
  | [], m => ⟨.ok m, []⟩
  | (key, value) :: rest, m =>
      let parsed := deserialize value
      match parsed.result with
      | .error error => ⟨.error (errors.inKey key error), parsed.log⟩
      | .ok a =>
          let others := deserializeEntries errors deserialize rest (Function.update m key (some a))
          ⟨others.result, parsed.log ++ others.log⟩

def replaceSimple {α : Type} (a : α) (parsed : Parsed α) : α × Except String Unit :=
  match parsed.result with
  | .ok value => (value, .ok ())
  | .error error => (a, .error error)

namespace ConfigType
variable {α : Type} (errors : TomlErrors)

/-- `Default::default()`. -/
def defaultValue {α : Type} : ConfigType α → α
  | leaf default _ => default
  | option _ => none
  | map _ => fun _ => none
  | struct _ _ default _ => default

/-- What the text "none" sets a field of the type to. -/
def noneValue {α : Type} : ConfigType α → Option α
  | option _ => some none
  | leaf _ _ => none
  | map _ => none
  | struct _ _ _ _ => none

def deserialize {α : Type} : ConfigType α → Toml → Parsed α
  | leaf _ deserialize, value => deserialize value
  | option inner, value =>
      let parsed := inner.deserialize value
      ⟨parsed.result.map some, parsed.log⟩
  | map inner, value =>
      match value with
      | .table entries => deserializeEntries errors inner.deserialize entries fun _ => none
      | value => ⟨.error (errors.invalidType value "a map"), []⟩
  | struct fields flatten default types, value =>
      match value with
      | .table entries => visitMap fields flatten (fun i => (types i).noneValue)
          (fun i => (types i).deserialize) default (fun i => (types i).defaultValue) entries
      | value => ⟨.error (errors.invalidType value "a mapping"), []⟩

/-- `SerdeReplace::replace`: the value afterwards, also after an error. -/
def replace {α : Type} : ConfigType α → α → Toml → α × Except String Unit
  | leaf _ deserialize, a, value => replaceSimple a (deserialize value)
  | option inner, some a, value =>
      let (a, result) := inner.replace a value
      (some a, result)
  | option inner, none, value => replaceSimple none ((option inner).deserialize errors value)
  | map inner, m, value =>
      match ((map inner).deserialize errors value).result with
      | .ok hashmap => (fun key => (hashmap key).or (m key), .ok ())
      | .error error => (m, .error error)
  | struct fields flatten default types, config, value =>
      match value with
      | .table entries => replaceEntries fields flatten (fun i => (types i).replace) (.table entries)
          entries config
      | value => replaceSimple config ((struct fields flatten default types).deserialize errors value)

end ConfigType
end Velacritty
