import Mathlib.Data.List.ReduceOption
import Velacritty.Fallible
import Velacritty.TomlMerge

/-! Loading a config file with its imports: which of the files a setting is taken from. Paths,
errors, and how a file is read are parameters. -/
namespace Velacritty
open Fallible

/-- A TOML value whose tables are sorted. -/
structure TomlValue where
  value : Toml
  sorted : value.Sorted

namespace TomlValue

def empty : TomlValue := ⟨.table [], ⟨List.Pairwise.nil, trivial⟩⟩

def merge (base replacement : TomlValue) : TomlValue :=
  ⟨base.value.merge replacement.value, .merge _ _ base.sorted replacement.sorted⟩

def valueAt (config : TomlValue) (path : List String) : Option Toml := config.value.valueAt path

/-- The config neither has a value at the path, nor hides one. -/
def Silent (config : TomlValue) (path : List String) : Prop :=
  config.valueAt path = none ∧ ¬ config.value.Overrides path

def Adds (path : List String) (config : TomlValue) (part : Option (List Toml)) : Prop :=
  match part with
  | some items => config.valueAt path = some (.array items)
  | none => config.Silent path

def mergeAll (configs : List TomlValue) : TomlValue := configs.foldl merge empty

end TomlValue

/-- The config files: how one is read, where an import is, and which errors are no error. -/
structure ConfigFiles (P E : Type) where
  deserializeConfig : P → Except E TomlValue
  normalizeImport : P → String → P
  isNotFound : E → Bool

inductive ImportLog (P E : Type) where
  | error (message : String)
  | notFound (path : P)
  | unableToImport (path : P) (error : E)

structure Loaded (R P E : Type) where
  result : R
  configPaths : List P
  log : List (ImportLog P E)

namespace ConfigFiles
variable {P E : Type} (files : ConfigFiles P E)

def imports (config : Toml) (basePath : P) (recursionLimit : Nat) :
    Except String (List (Except String P)) :=
  match (config.get "import").or ((config.get "general").bind fun g => g.get "import") with
  | some (.array imports) =>
      if !imports.isEmpty && recursionLimit = 0 then
        .error "Exceeded maximum configuration import depth"
      else
        .ok (imports.map fun
          | .string path => .ok (files.normalizeImport basePath path)
          | _ => .error "Invalid import element type: expected path string")
  | some _ => .error "Invalid import type: expected a sequence"
  | none => .ok []

def importStep (parseConfig : P → Option (Loaded (Except E TomlValue) P E))
    (merged : Loaded TomlValue P E) : Except String P → Option (Loaded TomlValue P E)
  | .error err => some { merged with log := merged.log ++ [.error err] }
  | .ok path => do
      let loaded ← parseConfig path
      let configPaths := merged.configPaths ++ loaded.configPaths
      match loaded.result with
      | .ok config => some ⟨merged.result.merge config, configPaths, merged.log ++ loaded.log⟩
      | .error err =>
          let message := if files.isNotFound err then .notFound path else .unableToImport path err
          some ⟨merged.result, configPaths, merged.log ++ loaded.log ++ [message]⟩

def loadImports (parseConfig : P → Option (Loaded (Except E TomlValue) P E)) (config : Toml)
    (basePath : P) (recursionLimit : Nat) : Option (Loaded TomlValue P E) :=
  match files.imports config basePath recursionLimit with
  | .error err => some ⟨.empty, [], [.error err]⟩
  | .ok importPaths => importPaths.foldlM (files.importStep parseConfig) ⟨.empty, [], []⟩

def parseWith (parseConfig : P → Option (Loaded (Except E TomlValue) P E)) (path : P)
    (recursionLimit : Nat) : Option (Loaded (Except E TomlValue) P E) :=
  match files.deserializeConfig path with
  | .error err => some ⟨.error err, [path], []⟩
  | .ok config => do
      let imports ← files.loadImports parseConfig config.value path recursionLimit
      some ⟨.ok (imports.result.merge config), path :: imports.configPaths, imports.log⟩

/-- Deserialize all configuration files as generic Value. Below a limit of zero there is no
other limit, and `recursion_limit - 1` is a panic. -/
def parseConfig : Nat → P → Option (Loaded (Except E TomlValue) P E)
  | 0, path => files.parseWith (fun _ => none) path 0
  | recursionLimit + 1, path => files.parseWith (parseConfig recursionLimit) path (recursionLimit + 1)

def importedConfigs (recursionLimit : Nat) (config : Toml) (path : P) : List TomlValue :=
  match files.imports config path recursionLimit with
  | .error _ => []
  | .ok importPaths => importPaths.filterMap fun importPath => do
      let path ← importPath.toOption
      let loaded ← files.parseConfig (recursionLimit - 1) path
      loaded.result.toOption

end ConfigFiles

/-- Later configs override the scalars of earlier ones, and arrays are appended. -/
structure Layered (configs : List TomlValue) (merged : TomlValue) : Prop where
  overrides : ∀ before config after path item, configs = before ++ config :: after →
    config.valueAt path = some item → item.IsScalar → (∀ later ∈ after, later.Silent path) →
    merged.valueAt path = some item
  appends : ∀ path (parts : List (Option (List Toml))),
    List.Forall₂ (TomlValue.Adds path) configs parts → (∃ items, some items ∈ parts) →
    merged.valueAt path = some (.array parts.reduceOption.flatten)

namespace TomlValue
variable {configs : List TomlValue} {path : List String}

theorem merge_silent {config : TomlValue} (h : config.Silent path) (base : TomlValue) :
    (base.merge config).valueAt path = base.valueAt path :=
  Toml.valueAt_merge_none config.sorted h.1 h.2 base.value

theorem foldl_silent (h : ∀ config ∈ configs, config.Silent path) (base : TomlValue) :
    (configs.foldl merge base).valueAt path = base.valueAt path := by
  induction configs generalizing base with
  | nil => rfl
  | cons config configs ih =>
      obtain ⟨hconfig, hrest⟩ := List.forall_mem_cons.mp h
      rw [List.foldl_cons, ih hrest, merge_silent hconfig]

theorem merge_array {base config : TomlValue} {items : List Toml}
    (h : config.valueAt path = some (.array items)) : (base.merge config).valueAt path =
      Toml.mergeEntry (base.valueAt path) (some (.array items)) :=
  Toml.valueAt_merge_some config.sorted h base.value

theorem foldl_appends {parts : List (Option (List Toml))} (h : List.Forall₂ (Adds path) configs parts)
    {base : TomlValue} {old : List Toml} (hbase : base.valueAt path = some (.array old)) :
    (configs.foldl merge base).valueAt path = some (.array (old ++ parts.reduceOption.flatten)) := by
  induction h generalizing base old with
  | nil =>
      rw [List.reduceOption_nil, List.flatten_nil, List.append_nil]
      exact hbase
  | @cons config part configs parts hpart _ ih =>
      rw [List.foldl_cons]
      cases part with
      | none =>
          rw [List.reduceOption_cons_of_none]
          exact ih ((merge_silent hpart base).trans hbase)
      | some items =>
          have hmerge : (base.merge config).valueAt path = some (.array (old ++ items)) := by
            rw [merge_array hpart, hbase]
            rfl
          rw [ih hmerge, List.reduceOption_cons_of_some, List.flatten_cons, List.append_assoc]

theorem foldl_appends_first {parts : List (Option (List Toml))}
    (h : List.Forall₂ (Adds path) configs parts) (hsome : ∃ items, some items ∈ parts) {base : TomlValue}
    (hbase : ∀ old, base.valueAt path ≠ some (.array old)) :
    (configs.foldl merge base).valueAt path = some (.array parts.reduceOption.flatten) := by
  induction h generalizing base with
  | nil =>
      obtain ⟨items, hitems⟩ := hsome
      exact absurd hitems List.not_mem_nil
  | @cons config part configs parts hpart hrest ih =>
      rw [List.foldl_cons]
      cases part with
      | none =>
          obtain ⟨items, hitems⟩ := hsome
          have hitems := (List.mem_cons.mp hitems).resolve_left (Option.some_ne_none items)
          rw [List.reduceOption_cons_of_none]
          refine ih ⟨items, hitems⟩ fun old hold => hbase old ?_
          rw [← hold, merge_silent hpart]
      | some items =>
          have hmerge : (base.merge config).valueAt path = some (.array items) := by
            rw [merge_array hpart]
            cases hold : base.valueAt path with
            | none => rfl
            | some old =>
                refine congrArg some (Toml.merge_of_not_meets fun hmeet => ?_)
                cases old with
                | array old => exact hbase old hold
                | _ => exact hmeet
          rw [foldl_appends hrest hmerge, List.reduceOption_cons_of_some, List.flatten_cons]

theorem mergeAll_layered (configs : List TomlValue) : Layered configs (mergeAll configs) := by
  refine ⟨fun before config after path item hconfigs hitem hscalar hafter => ?_,
    fun path parts hparts hsome => ?_⟩
  · rw [hconfigs, mergeAll, List.foldl_append, List.foldl_cons, foldl_silent hafter]
    refine (Toml.valueAt_merge_some config.sorted hitem _).trans ?_
    cases Toml.valueAt _ path with
    | none => rfl
    | some old => exact congrArg some (Toml.merge_scalar hscalar old)
  · refine foldl_appends_first hparts hsome fun old hold => ?_
    cases path with
    | nil => exact Toml.noConfusion (Option.some.inj hold)
    | cons key path => exact Option.some_ne_none _ hold.symm

end TomlValue

namespace ConfigFiles
variable {P E : Type} {files : ConfigFiles P E}
  {parse : P → Option (Loaded (Except E TomlValue) P E)}

theorem foldlM_importStep (hparse : ∀ path, (parse path).isSome)
    (importPaths : List (Except String P)) (merged : Loaded TomlValue P E) :
    Returns (importPaths.foldlM (files.importStep parse) merged) fun imports =>
      imports.result = (importPaths.filterMap fun importPath => do
        let path ← importPath.toOption
        let loaded ← parse path
        loaded.result.toOption).foldl TomlValue.merge merged.result := by
  induction importPaths generalizing merged with
  | nil => exact .pure rfl
  | cons importPath rest ih =>
      rw [List.foldlM_cons]
      cases importPath with
      | error err =>
          rw [List.filterMap_cons_none rfl]
          exact ih _
      | ok path =>
          obtain ⟨loaded, hloaded⟩ := Option.isSome_iff_exists.mp (hparse path)
          simp only [importStep, hloaded, Option.bind_eq_bind, Option.bind_some]
          cases hresult : loaded.result with
          | error err =>
              rw [List.filterMap_cons_none (by simp [Except.toOption, hloaded, hresult])]
              exact ih _
          | ok config =>
              rw [List.filterMap_cons_some (b := config) (by simp [Except.toOption, hloaded, hresult])]
              exact ih _

theorem imports_zero {config : Toml} {basePath : P} {importPaths : List (Except String P)}
    (h : files.imports config basePath 0 = .ok importPaths) : importPaths = [] := by
  unfold imports at h
  split at h
  · next imports _ =>
      split at h
      · cases h
      · next hempty =>
          obtain rfl : imports = [] := by simpa using hempty
          exact (Except.ok.inj h).symm
  · cases h
  · exact (Except.ok.inj h).symm

theorem parseWith_returns {recursionLimit : Nat}
    (hparse : 0 < recursionLimit → ∀ path, (parse path).isSome ∧
      files.parseConfig (recursionLimit - 1) path = parse path) (path : P) :
    Returns (files.parseWith parse path recursionLimit) fun loaded =>
      loaded.result = (files.deserializeConfig path).map fun file =>
        .mergeAll (files.importedConfigs recursionLimit file.value path ++ [file]) := by
  unfold parseWith
  cases files.deserializeConfig path with
  | error err => exact .pure rfl
  | ok file =>
      have himports : Returns (files.loadImports parse file.value path recursionLimit) fun imports =>
          imports.result = .mergeAll (files.importedConfigs recursionLimit file.value path) := by
        unfold loadImports importedConfigs
        cases hpaths : files.imports file.value path recursionLimit with
        | error err => exact .pure rfl
        | ok importPaths =>
            rcases Nat.eq_zero_or_pos recursionLimit with rfl | hpos
            · rw [imports_zero hpaths]
              exact .pure rfl
            · simp only [fun path => (hparse hpos path).2]
              exact foldlM_importStep (fun path => (hparse hpos path).1) importPaths _
      refine himports.bind fun imports hresult => .pure ?_
      simp only [hresult, Except.map, TomlValue.mergeAll, List.foldl_append, List.foldl_cons, List.foldl_nil]

/-- Loading a config never panics, as the limit is looked at before it is lowered, and gives
the imports and then the file merged. -/
theorem parseConfig_returns (files : ConfigFiles P E) (recursionLimit : Nat) (path : P) :
    Returns (files.parseConfig recursionLimit path) fun loaded =>
      loaded.result = (files.deserializeConfig path).map fun file =>
        .mergeAll (files.importedConfigs recursionLimit file.value path ++ [file]) := by
  induction recursionLimit generalizing path with
  | zero => exact parseWith_returns (fun hpos => absurd hpos (Nat.lt_irrefl 0)) path
  | succ recursionLimit ih => exact parseWith_returns (fun _ path => ⟨(ih path).isSome, rfl⟩) path

/-- A merged config has at every path the value of the replacement, or both arrays, or what
the base has; a loaded config is its imports and its file merged in this order, the later
ones over the earlier ones; and the order of merges makes no difference if the shapes agree. -/
theorem merge_law (files : ConfigFiles P E) :
    (∀ base replacement : TomlValue, ∀ path,
      Toml.MergedAt base.value replacement.value (base.merge replacement).value path) ∧
    (∀ recursionLimit path, Returns (files.parseConfig recursionLimit path) fun loaded =>
      ∀ config, loaded.result = .ok config → ∃ file, files.deserializeConfig path = .ok file ∧
        config = .mergeAll (files.importedConfigs recursionLimit file.value path ++ [file]) ∧
        Layered (files.importedConfigs recursionLimit file.value path ++ [file]) config) ∧
    (∀ a b c : TomlValue, a.value.Agree b.value → b.value.Agree c.value → a.value.Agree c.value →
      (a.merge b).merge c = a.merge (b.merge c)) := by
  refine ⟨fun base replacement path => Toml.mergedAt replacement.sorted base.value path,
    fun recursionLimit path => ?_, fun a b c hab hbc hac => ?_⟩
  · refine (parseConfig_returns files recursionLimit path).mono fun loaded hloaded config hconfig => ?_
    rw [hloaded] at hconfig
    cases hfile : files.deserializeConfig path with
    | error err =>
        rw [hfile] at hconfig
        cases hconfig
    | ok file =>
        rw [hfile] at hconfig
        obtain rfl := Except.ok.inj hconfig
        exact ⟨file, rfl, rfl, TomlValue.mergeAll_layered _⟩
  · obtain ⟨c, hc⟩ := c
    simp only [TomlValue.merge, Toml.merge_assoc c a.value b.value a.sorted b.sorted hc hab hbc hac]

end ConfigFiles
end Velacritty
