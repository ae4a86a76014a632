import Velacritty.OrderedMap
import Mathlib.Data.Option.Basic

/-! The settings of the configuration file that have moved, as the program reads them. -/
namespace Velacritty

inductive Toml where
  | string (value : String)
  | integer (value : Int64)
  | float (bits : UInt64)
  | boolean (value : Bool)
  | datetime (text : String)
  | array (items : List Toml)
  | table (entries : List (String × Toml))

namespace Toml

def asStr : Toml → Option String
  | string value => some value
  | _ => none

def asTable : Toml → Option (List (String × Toml))
  | table entries => some entries
  | _ => none

def get (value : Toml) (key : String) : Option Toml := value.asTable.bind (List.lookup key)

def deserializeBool : Toml → Option Bool
  | boolean value => some value
  | _ => none

/-- The value of an optional field: the text "none" stands for no value, and an error is
only logged. -/
def optionField {α : Type} (deserialize : Toml → Option α) : Option Toml → Option α
  | none => none
  | some value =>
      match value.asStr with
      | some s => if s.toList.map Char.toLower = ['n', 'o', 'n', 'e'] then none else deserialize value
      | none => deserialize value

/-- The value of another field: an error is logged, and leaves the default. -/
def field {α : Type} (deserialize : Toml → Option α) (default : α) (value : Option Toml) : α :=
  (value.bind deserialize).getD default

end Toml

inductive Program where
  | just (program : String)
  | withArgs (program : String) (args : List String)
  deriving DecidableEq, Repr

structure Shell where
  program : String
  args : List String
  deriving DecidableEq, Repr

namespace Program

def deserialize : Toml → Option Program
  | .string program => some (.just program)
  | .table entries => do
      guard (entries.all fun e => e.1 = "program" || e.1 = "args")
      let program ← (entries.lookup "program").bind Toml.asStr
      let args ← match entries.lookup "args" with
        | none => some []
        | some (.array items) => items.mapM Toml.asStr
        | some _ => none
      some (.withArgs program args)
  | _ => none

def intoShell : Program → Shell
  | just program => ⟨program, []⟩
  | withArgs program args => ⟨program, args⟩

end Program

structure General where
  workingDirectory : Option String := none
  liveConfigReload : Bool := true
  ipcSocket : Bool := true
  deriving DecidableEq, Repr

def General.deserialize (value : Toml) : Option General := do
  let entries ← value.asTable
  some {
    workingDirectory := Toml.optionField Toml.asStr (entries.lookup "working_directory")
    liveConfigReload := Toml.field Toml.deserializeBool true (entries.lookup "live_config_reload")
    ipcSocket := Toml.field Toml.deserializeBool true (entries.lookup "ipc_socket") }

structure Terminal where
  shell : Option Program := none
  deriving DecidableEq, Repr

def Terminal.deserialize (value : Toml) : Option Terminal := do
  let entries ← value.asTable
  some { shell := Toml.optionField Program.deserialize (entries.lookup "shell") }

structure UiConfig where
  general : General := {}
  terminal : Terminal := {}
  shell : Option Program := none
  workingDirectory : Option String := none
  liveConfigReload : Option Bool := none
  ipcSocket : Option Bool := none
  deriving DecidableEq, Repr

structure PtyOptions where
  shell : Option Shell
  workingDirectory : Option String
  drainOnExit : Bool
  env : List (String × String)
  deriving DecidableEq, Repr

namespace UiConfig

def deserialize (entries : List (String × Toml)) : UiConfig where
  general := Toml.field General.deserialize {} (entries.lookup "general")
  terminal := Toml.field Terminal.deserialize {} (entries.lookup "terminal")
  shell := Toml.optionField Program.deserialize (entries.lookup "shell")
  workingDirectory := Toml.optionField Toml.asStr (entries.lookup "working_directory")
  liveConfigReload := Toml.optionField Toml.deserializeBool (entries.lookup "live_config_reload")
  ipcSocket := Toml.optionField Toml.deserializeBool (entries.lookup "ipc_socket")

def ptyConfig (config : UiConfig) : PtyOptions where
  shell := (config.terminal.shell.or config.shell).map Program.intoShell
  workingDirectory := config.workingDirectory.or config.general.workingDirectory
  drainOnExit := false
  env := []

def liveConfigReloadValue (config : UiConfig) : Bool :=
  config.liveConfigReload.getD config.general.liveConfigReload

def ipcSocketValue (config : UiConfig) : Bool := config.ipcSocket.getD config.general.ipcSocket

end UiConfig

def imports (config : Toml) (normalizeImport : String → String) (recursionLimit : Nat) :
    Except String (List (Except String String)) :=
  let imports := (config.get "import").or ((config.get "general").bind fun g => g.get "import")
  match imports with
  | some (.array imports) =>
      if !imports.isEmpty && recursionLimit = 0 then
        .error "Exceeded maximum configuration import depth"
      else
        .ok (imports.map fun
          | .string path => .ok (normalizeImport path)
          | _ => .error "Invalid import element type: expected path string")
  | some _ => .error "Invalid import type: expected a sequence"
  | none => .ok []

end Velacritty
