import Velacritty.UiConfig
import Velacritty.Fallible

/-! The migration of a configuration file: settings move into their sections. -/
namespace Velacritty
open Fallible

/-- The entries of a TOML document or table, in their order. -/
abbrev TomlTable := List (String × Toml)

def removeItem (table : TomlTable) : List String → Option (Option (Toml × TomlTable))
  | [] => none
  | [element] => some ((table.lookup element).map fun item => (item, OrderedMap.erase element table))
  | element :: next :: path =>
      match table.lookup element with
      | none => some none
      | some item => do
          let inner ← item.asTable
          let removed ← removeItem inner (next :: path)
          some (removed.map fun r => (r.1, OrderedMap.insert element (.table r.2) table))

/-- Put an item at a path, creating missing parent tables. -/
def insertItem (table : TomlTable) (item : Toml) : List String → Option TomlTable
  | [] => some table
  | [element] => some (OrderedMap.insert element item table)
  | element :: next :: path => do
      let inner ← ((table.lookup element).getD (.table [])).asTable
      let inner ← insertItem inner item (next :: path)
      some (OrderedMap.insert element (.table inner) table)

def moveValue (document : TomlTable) (origin target : List String) : Option TomlTable := do
  match ← removeItem document origin with
  | none => some document
  | some (item, document) => insertItem document item target

def migrateToml (document : TomlTable) : Option TomlTable := do
  let document ← moveValue document ["draw_bold_text_with_bright_colors"]
    ["colors", "draw_bold_text_with_bright_colors"]
  let document ← moveValue document ["key_bindings"] ["keyboard", "bindings"]
  let document ← moveValue document ["mouse_bindings"] ["mouse", "bindings"]
  let document ← moveValue document ["live_config_reload"] ["general", "live_config_reload"]
  let document ← moveValue document ["working_directory"] ["general", "working_directory"]
  let document ← moveValue document ["ipc_socket"] ["general", "ipc_socket"]
  let document ← moveValue document ["import"] ["general", "import"]
  moveValue document ["shell"] ["terminal", "shell"]

/-! ### Moves -/

/-- A key of the document moves to a key of a table. -/
structure Move where
  origin : String
  table : String
  key : String
  deriving DecidableEq

def Move.apply (document : TomlTable) (m : Move) : Option TomlTable :=
  moveValue document [m.origin] [m.table, m.key]

def moves : List Move :=
  [⟨"draw_bold_text_with_bright_colors", "colors", "draw_bold_text_with_bright_colors"⟩,
    ⟨"key_bindings", "keyboard", "bindings"⟩, ⟨"mouse_bindings", "mouse", "bindings"⟩,
    ⟨"live_config_reload", "general", "live_config_reload"⟩,
    ⟨"working_directory", "general", "working_directory"⟩, ⟨"ipc_socket", "general", "ipc_socket"⟩,
    ⟨"import", "general", "import"⟩, ⟨"shell", "terminal", "shell"⟩]

theorem migrateToml_eq (document : TomlTable) :
    migrateToml document = moves.foldlM Move.apply document := by
  simp only [moves, List.foldlM_cons, List.foldlM_nil, Move.apply, migrateToml, Option.pure_def,
    Option.bind_eq_bind, Option.bind_fun_some]

def itemAt (document : TomlTable) (table key : String) : Option Toml :=
  (document.lookup table).bind fun item => item.get key

def HasTable (document : TomlTable) (table : String) : Prop :=
  ∀ item, document.lookup table = some item → item.asTable.isSome

structure Moved (m : Move) (document document' : TomlTable) : Prop where
  origin : document'.lookup m.origin = none
  target : itemAt document' m.table m.key = (document.lookup m.origin).or (itemAt document m.table m.key)
  root : ∀ k, k ≠ m.origin → k ≠ m.table → document'.lookup k = document.lookup k
  beside : ∀ k, k ≠ m.key → itemAt document' m.table k = itemAt document m.table k
  tables : ∀ t, t ≠ m.origin → HasTable document t → HasTable document' t

theorem Moved.refl {m : Move} {document : TomlTable} (h : document.lookup m.origin = none) :
    Moved m document document := by
  refine ⟨h, ?_, fun _ _ _ => rfl, fun _ _ => rfl, fun _ _ => id⟩
  rw [h, Option.none_or]

theorem itemAt_insert_table (document entries : TomlTable) (table key : String) :
    itemAt (OrderedMap.insert table (.table entries) document) table key = entries.lookup key := by
  rw [itemAt, OrderedMap.lookup_insert_self]
  rfl

theorem HasTable.entries {document : TomlTable} {table : String} (h : HasTable document table) :
    ∃ entries, ((document.lookup table).getD (.table [])).asTable = some entries ∧
      ∀ key, entries.lookup key = itemAt document table key := by
  unfold itemAt
  cases hitem : document.lookup table with
  | none => exact ⟨[], rfl, fun key => rfl⟩
  | some item =>
      obtain ⟨entries, hentries⟩ := Option.isSome_iff_exists.mp (h item hitem)
      refine ⟨entries, hentries, fun key => ?_⟩
      rw [Option.bind_some, Toml.get, hentries, Option.bind_some]

/-- Nothing moves without the origin; otherwise its item replaces that of the target. -/
theorem apply_moved {m : Move} {document : TomlTable} (hne : m.origin ≠ m.table)
    (htable : HasTable document m.table) : Returns (m.apply document) (Moved m document) := by
  unfold Move.apply moveValue removeItem
  cases horigin : document.lookup m.origin with
  | none => exact .pure (.refl horigin)
  | some item =>
      have herase : (OrderedMap.erase m.origin document).lookup m.table = document.lookup m.table :=
        OrderedMap.lookup_erase_ne hne.symm document
      obtain ⟨entries, hentries, hlookup⟩ := htable.entries
      simp only [Option.map_some, Option.bind_eq_bind, Option.bind_some, insertItem, herase, hentries]
      refine .pure ⟨?_, ?_, fun k hk hk' => ?_, fun k hk => ?_, fun t ht hhas => ?_⟩
      · rw [OrderedMap.lookup_insert_ne hne]
        exact OrderedMap.lookup_erase_self m.origin document
      · rw [itemAt_insert_table, OrderedMap.lookup_insert_self, horigin, Option.some_or]
      · rw [OrderedMap.lookup_insert_ne hk']
        exact OrderedMap.lookup_erase_ne hk document
      · rw [itemAt_insert_table, OrderedMap.lookup_insert_ne hk, hlookup]
      · intro item' hitem'
        by_cases heq : t = m.table
        · rw [heq, OrderedMap.lookup_insert_self, Option.some.injEq] at hitem'
          exact hitem' ▸ rfl
        · rw [OrderedMap.lookup_insert_ne heq, OrderedMap.lookup_erase_ne ht] at hitem'
          exact hhas item' hitem'

theorem Moved.itemAt {m : Move} {document document' : TomlTable} (h : Moved m document document')
    {t k : String} (ht : t ≠ m.origin) (hk : t ≠ m.table ∨ k ≠ m.key) :
    itemAt document' t k = itemAt document t k := by
  by_cases heq : t = m.table
  · have hkey : k ≠ m.key := hk.resolve_left fun hno => hno heq
    rw [heq]
    exact h.beside k hkey
  · unfold Velacritty.itemAt
    rw [h.root t ht heq]

/-- Moves that do not meet: of different keys, and to different places. -/
def Move.Apart (m m' : Move) : Prop :=
  m.origin ≠ m'.origin ∧ (m.table ≠ m'.table ∨ m.key ≠ m'.key)

instance (m m' : Move) : Decidable (m.Apart m') :=
  inferInstanceAs (Decidable (_ ∧ (_ ∨ _)))

structure AllMoved (ms : List Move) (document document' : TomlTable) : Prop where
  moved : ∀ m ∈ ms, document'.lookup m.origin = none ∧
    itemAt document' m.table m.key = (document.lookup m.origin).or (itemAt document m.table m.key)
  root : ∀ k, (∀ m ∈ ms, k ≠ m.origin ∧ k ≠ m.table) → document'.lookup k = document.lookup k
  items : ∀ t k, (∀ m ∈ ms, t ≠ m.origin ∧ (t ≠ m.table ∨ k ≠ m.key)) →
    itemAt document' t k = itemAt document t k
  tables : ∀ t, (∀ m ∈ ms, t ≠ m.origin) → HasTable document t → HasTable document' t

theorem moves_returns {ms : List Move} {document : TomlTable} (hapart : ms.Pairwise Move.Apart)
    (hself : ∀ m ∈ ms, ∀ m' ∈ ms, m.origin ≠ m'.table) (htables : ∀ m ∈ ms, HasTable document m.table) :
    Returns (ms.foldlM Move.apply document) (AllMoved ms document) := by
  induction ms generalizing document with
  | nil => exact .pure ⟨nofun, fun _ _ => rfl, fun _ _ _ => rfl, fun _ _ => id⟩
  | cons m ms ih =>
      obtain ⟨hhead, htail⟩ := List.pairwise_cons.mp hapart
      have hm : m ∈ m :: ms := List.mem_cons_self
      have hms : ∀ m' ∈ ms, m' ∈ m :: ms := fun _ => List.mem_cons_of_mem m
      rw [List.foldlM_cons]
      refine (apply_moved (hself m hm m hm) (htables m hm)).bind fun middle hmiddle => ?_
      have htables' : ∀ m' ∈ ms, HasTable middle m'.table := fun m' hm' =>
        hmiddle.tables _ (hself m hm m' (hms m' hm')).symm (htables m' (hms m' hm'))
      refine (ih htail (fun a ha b hb => hself a (hms a ha) b (hms b hb)) htables').mono
        fun document' h => ⟨fun m' hm' => ?_, fun k hk => ?_, fun t k hk => ?_, fun t ht hhas => ?_⟩
      · rcases List.mem_cons.mp hm' with rfl | hm'
        · -- The moves after this one leave its origin and its target alone.
          refine ⟨(h.root _ fun a ha => ⟨(hhead a ha).1, ?_⟩).trans hmiddle.origin,
            (h.items _ _ fun a ha => ⟨?_, (hhead a ha).2⟩).trans hmiddle.target⟩
          · exact hself m' hm a (hms a ha)
          · exact (hself a (hms a ha) m' hm).symm
        · obtain ⟨horigin, htarget⟩ := h.moved m' hm'
          have hap := hhead m' hm'
          rw [hmiddle.root _ hap.1.symm (hself m' (hms m' hm') m hm),
            hmiddle.itemAt (hself m hm m' (hms m' hm')).symm (hap.2.imp Ne.symm Ne.symm)] at htarget
          exact ⟨horigin, htarget⟩
      · exact (h.root k fun a ha => hk a (hms a ha)).trans (hmiddle.root k (hk m hm).1 (hk m hm).2)
      · exact (h.items t k fun a ha => hk a (hms a ha)).trans (hmiddle.itemAt (hk m hm).1 (hk m hm).2)
      · exact h.tables t (fun a ha => ht a (hms a ha)) (hmiddle.tables t (ht m hm) hhas)

/-- The tables that settings move to are missing, or are tables. -/
def HasTables (document : TomlTable) : Prop := ∀ m ∈ moves, HasTable document m.table

theorem migrateToml_moved {document : TomlTable} (h : HasTables document) :
    Returns (migrateToml document) (AllMoved moves document) := by
  rw [migrateToml_eq]
  exact moves_returns (by decide) (by decide) h

/-! ### Settings -/

/-- The program resolves the settings of both documents alike. -/
structure SameSettings (document document' : TomlTable) : Prop where
  shell : (UiConfig.deserialize document').ptyConfig.shell =
    (UiConfig.deserialize document).ptyConfig.shell
  workingDirectory : (UiConfig.deserialize document').ptyConfig.workingDirectory =
    (UiConfig.deserialize document).ptyConfig.workingDirectory
  liveConfigReload : (UiConfig.deserialize document').liveConfigReloadValue =
    (UiConfig.deserialize document).liveConfigReloadValue
  ipcSocket : (UiConfig.deserialize document').ipcSocketValue =
    (UiConfig.deserialize document).ipcSocketValue
  imports : imports (.table document') = imports (.table document)

/-- Where an old key is present, its value is the one that counts: the new shell is invalid or
the same, and the other new settings have no value of their own if the old ones have none. -/
structure Agrees (document : TomlTable) : Prop where
  shell : (document.lookup "shell").isSome →
    (UiConfig.deserialize document).terminal.shell = none ∨
      (UiConfig.deserialize document).terminal.shell.map Program.intoShell =
        (UiConfig.deserialize document).shell.map Program.intoShell
  workingDirectory : (document.lookup "working_directory").isSome →
    (UiConfig.deserialize document).workingDirectory = none →
      (UiConfig.deserialize document).general.workingDirectory = none
  liveConfigReload : (document.lookup "live_config_reload").isSome →
    (UiConfig.deserialize document).liveConfigReload = none →
      (UiConfig.deserialize document).general.liveConfigReload = true
  ipcSocket : (document.lookup "ipc_socket").isSome →
    (UiConfig.deserialize document).ipcSocket = none →
      (UiConfig.deserialize document).general.ipcSocket = true

section
variable {document document' : TomlTable}

theorem general_eq (h : HasTable document "general") : (UiConfig.deserialize document).general = {
    workingDirectory := Toml.optionField Toml.asStr (itemAt document "general" "working_directory")
    liveConfigReload := Toml.field Toml.deserializeBool true
      (itemAt document "general" "live_config_reload")
    ipcSocket := Toml.field Toml.deserializeBool true (itemAt document "general" "ipc_socket") } := by
  simp only [UiConfig.deserialize, itemAt]
  cases hitem : document.lookup "general" with
  | none => rfl
  | some item =>
      obtain ⟨entries, hentries⟩ := Option.isSome_iff_exists.mp (h item hitem)
      simp only [Toml.field, General.deserialize, Toml.get, hentries, Option.bind_eq_bind,
        Option.bind_some, Option.getD_some]

theorem terminal_eq (h : HasTable document "terminal") : (UiConfig.deserialize document).terminal = {
    shell := Toml.optionField Program.deserialize (itemAt document "terminal" "shell") } := by
  simp only [UiConfig.deserialize, itemAt]
  cases hitem : document.lookup "terminal" with
  | none => rfl
  | some item =>
      obtain ⟨entries, hentries⟩ := Option.isSome_iff_exists.mp (h item hitem)
      simp only [Toml.field, Terminal.deserialize, Toml.get, hentries, Option.bind_eq_bind,
        Option.bind_some, Option.getD_some]

theorem optionField_bool (item : Toml) :
    Toml.optionField Toml.deserializeBool (some item) = item.deserializeBool := by
  cases item with
  | string value =>
      simp only [Toml.optionField, Toml.asStr]
      split <;> rfl
  | integer value => rfl
  | float bits => rfl
  | boolean value => rfl
  | datetime text => rfl
  | array items => rfl
  | table entries => rfl

theorem shell_moved_iff (hnone : document'.lookup "shell" = none)
    (hmoved : itemAt document' "terminal" "shell" =
      (document.lookup "shell").or (itemAt document "terminal" "shell"))
    (h : HasTable document "terminal") (h' : HasTable document' "terminal") :
    (UiConfig.deserialize document').ptyConfig.shell = (UiConfig.deserialize document).ptyConfig.shell ↔
      ((document.lookup "shell").isSome → (UiConfig.deserialize document).terminal.shell = none ∨
        (UiConfig.deserialize document).terminal.shell.map Program.intoShell =
          (UiConfig.deserialize document).shell.map Program.intoShell) := by
  simp only [UiConfig.ptyConfig, terminal_eq h, terminal_eq h']
  simp only [UiConfig.deserialize, hnone, hmoved]
  cases document.lookup "shell" with
  | none => exact ⟨fun _ hno => absurd hno Bool.false_ne_true, fun _ => rfl⟩
  | some item =>
      simp only [Option.some_or, Option.isSome_some, true_implies]
      rw [show Toml.optionField Program.deserialize none = none from rfl, Option.or_none]
      generalize Toml.optionField Program.deserialize (some item) = old
      cases Toml.optionField Program.deserialize (itemAt document "terminal" "shell") with
      | none => exact ⟨fun _ => .inl rfl, fun _ => rfl⟩
      | some new =>
          rw [Option.some_or]
          exact ⟨fun heq => .inr heq.symm, fun heq => (heq.resolve_left nofun).symm⟩

theorem workingDirectory_moved_iff (hnone : document'.lookup "working_directory" = none)
    (hmoved : itemAt document' "general" "working_directory" =
      (document.lookup "working_directory").or (itemAt document "general" "working_directory"))
    (h : HasTable document "general") (h' : HasTable document' "general") :
    (UiConfig.deserialize document').ptyConfig.workingDirectory =
        (UiConfig.deserialize document).ptyConfig.workingDirectory ↔
      ((document.lookup "working_directory").isSome →
        (UiConfig.deserialize document).workingDirectory = none →
          (UiConfig.deserialize document).general.workingDirectory = none) := by
  simp only [UiConfig.ptyConfig, general_eq h, general_eq h']
  simp only [UiConfig.deserialize, hnone, hmoved]
  cases document.lookup "working_directory" with
  | none => exact ⟨fun _ hno => absurd hno Bool.false_ne_true, fun _ => rfl⟩
  | some item =>
      simp only [Option.some_or, Option.isSome_some, true_implies]
      rw [show Toml.optionField Toml.asStr none = none from rfl, Option.none_or]
      generalize Toml.optionField Toml.asStr (itemAt document "general" "working_directory") = new
      cases Toml.optionField Toml.asStr (some item) with
      | none =>
          rw [Option.none_or]
          exact ⟨fun heq _ => heq.symm, fun hnew => (hnew rfl).symm⟩
      | some old => exact ⟨fun _ => nofun, fun _ => rfl⟩

/-- A switch that moved to the general section keeps its value if and only if the old one was
a boolean, or the new one is on as it is by default. -/
theorem switch_moved_iff (item new : Option Toml) :
    (Toml.optionField Toml.deserializeBool none).getD
        (Toml.field Toml.deserializeBool true (item.or new)) =
      (Toml.optionField Toml.deserializeBool item).getD (Toml.field Toml.deserializeBool true new) ↔
    (item.isSome → Toml.optionField Toml.deserializeBool item = none →
      Toml.field Toml.deserializeBool true new = true) := by
  cases item with
  | none => exact ⟨fun _ hno => absurd hno Bool.false_ne_true, fun _ => rfl⟩
  | some item =>
      rw [optionField_bool, Option.some_or, show Toml.optionField Toml.deserializeBool none = none from rfl]
      simp only [Option.getD_none, Option.isSome_some, true_implies, Toml.field, Option.bind_some]
      cases item.deserializeBool with
      | none => exact ⟨fun heq _ => heq.symm, fun hnew => (hnew rfl).symm⟩
      | some old => exact ⟨fun _ => nofun, fun _ => rfl⟩

theorem imports_moved (hnone : document'.lookup "import" = none)
    (hmoved : itemAt document' "general" "import" =
      (document.lookup "import").or (itemAt document "general" "import")) :
    imports (.table document') = imports (.table document) := by
  have hget : ∀ (d : TomlTable) key, (Toml.table d).get key = d.lookup key := fun _ _ => rfl
  funext normalizeImport recursionLimit
  simp only [imports, hget]
  have hitem : ∀ d : TomlTable, ((d.lookup "general").bind fun g => g.get "import") =
      itemAt d "general" "import" := fun _ => rfl
  rw [hitem, hitem, hnone, hmoved, Option.none_or]

theorem liveConfigReload_moved_iff (hnone : document'.lookup "live_config_reload" = none)
    (hmoved : itemAt document' "general" "live_config_reload" =
      (document.lookup "live_config_reload").or (itemAt document "general" "live_config_reload"))
    (h : HasTable document "general") (h' : HasTable document' "general") :
    (UiConfig.deserialize document').liveConfigReloadValue =
        (UiConfig.deserialize document).liveConfigReloadValue ↔
      ((document.lookup "live_config_reload").isSome →
        (UiConfig.deserialize document).liveConfigReload = none →
          (UiConfig.deserialize document).general.liveConfigReload = true) := by
  simp only [UiConfig.liveConfigReloadValue, general_eq h, general_eq h']
  simp only [UiConfig.deserialize, hnone, hmoved]
  exact switch_moved_iff _ _

theorem ipcSocket_moved_iff (hnone : document'.lookup "ipc_socket" = none)
    (hmoved : itemAt document' "general" "ipc_socket" =
      (document.lookup "ipc_socket").or (itemAt document "general" "ipc_socket"))
    (h : HasTable document "general") (h' : HasTable document' "general") :
    (UiConfig.deserialize document').ipcSocketValue = (UiConfig.deserialize document).ipcSocketValue ↔
      ((document.lookup "ipc_socket").isSome → (UiConfig.deserialize document).ipcSocket = none →
        (UiConfig.deserialize document).general.ipcSocket = true) := by
  simp only [UiConfig.ipcSocketValue, general_eq h, general_eq h']
  simp only [UiConfig.deserialize, hnone, hmoved]
  exact switch_moved_iff _ _

/-- The migration returns a document, and its settings are those of the original if and only if
the old keys of the original agree with the new ones. -/
theorem migrateToml_settings (h : HasTables document) :
    Returns (migrateToml document) fun document' =>
      (SameSettings document document' ↔ Agrees document) := by
  refine (migrateToml_moved h).mono fun document' hmoved => ?_
  have hgeneral : HasTable document "general" :=
    h ⟨"import", "general", "import"⟩ (by decide)
  have hterminal : HasTable document "terminal" := h ⟨"shell", "terminal", "shell"⟩ (by decide)
  have hgeneral' := hmoved.tables "general" (by decide) hgeneral
  have hterminal' := hmoved.tables "terminal" (by decide) hterminal
  obtain ⟨hshell, hshell'⟩ := hmoved.moved ⟨"shell", "terminal", "shell"⟩ (by decide)
  obtain ⟨hdir, hdir'⟩ :=
    hmoved.moved ⟨"working_directory", "general", "working_directory"⟩ (by decide)
  obtain ⟨hlive, hlive'⟩ :=
    hmoved.moved ⟨"live_config_reload", "general", "live_config_reload"⟩ (by decide)
  obtain ⟨hipc, hipc'⟩ := hmoved.moved ⟨"ipc_socket", "general", "ipc_socket"⟩ (by decide)
  obtain ⟨himport, himport'⟩ := hmoved.moved ⟨"import", "general", "import"⟩ (by decide)
  have hshell_iff := shell_moved_iff hshell hshell' hterminal hterminal'
  have hdir_iff := workingDirectory_moved_iff hdir hdir' hgeneral hgeneral'
  have hlive_iff := liveConfigReload_moved_iff hlive hlive' hgeneral hgeneral'
  have hipc_iff := ipcSocket_moved_iff hipc hipc' hgeneral hgeneral'
  refine ⟨fun hsame => ?_, fun hagrees => ?_⟩
  · exact ⟨hshell_iff.mp hsame.shell, hdir_iff.mp hsame.workingDirectory,
      hlive_iff.mp hsame.liveConfigReload, hipc_iff.mp hsame.ipcSocket⟩
  · exact ⟨hshell_iff.mpr hagrees.shell, hdir_iff.mpr hagrees.workingDirectory,
      hlive_iff.mpr hagrees.liveConfigReload, hipc_iff.mpr hagrees.ipcSocket,
      imports_moved himport himport'⟩

end

/-- A document with old keys, and tables that have new ones: the same shell, and another value for
`live_config_reload`, which does not count. -/
def oldDocument : TomlTable :=
  [("shell", .string "/bin/fish"), ("working_directory", .string "/home"),
    ("live_config_reload", .boolean false), ("import", .array [.string "keys.toml"]),
    ("general", .table [("live_config_reload", .boolean true), ("ipc_socket", .boolean false)]),
    ("terminal", .table [("shell", .table [("program", .string "/bin/fish")])])]

theorem migrateToml_settings_old : ∃ document' : TomlTable,
    migrateToml oldDocument = some document' ∧ SameSettings oldDocument document' := by
  have htables : HasTables oldDocument := by
    intro m hm item hitem
    have hall : ∀ m ∈ moves, (oldDocument.lookup m.table).all fun item => item.asTable.isSome := by decide
    have htable := hall m hm
    rw [hitem] at htable
    exact htable
  obtain ⟨document', hdocument', hiff⟩ := migrateToml_settings htables
  refine ⟨document', hdocument', hiff.mpr ⟨fun _ => .inr (by decide), fun _ _ => by decide, fun _ h => ?_, fun h => ?_⟩⟩
  · exact absurd h (by decide)
  · exact absurd h (by decide)

/-- Before the migration the new shell counts, after it the old one. -/
theorem shell_overwritten : ∃ document' : TomlTable,
    migrateToml [("shell", .string "/bin/old"), ("terminal", .table [("shell", .string "/bin/new")])] =
      some document' ∧
    (UiConfig.deserialize [("shell", .string "/bin/old"),
      ("terminal", .table [("shell", .string "/bin/new")])]).ptyConfig.shell = some ⟨"/bin/new", []⟩ ∧
    (UiConfig.deserialize document').ptyConfig.shell = some ⟨"/bin/old", []⟩ :=
  ⟨_, rfl, by decide, by decide⟩

end Velacritty
