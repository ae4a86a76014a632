import Mathlib.Data.List.Basic

/-! The environment block of a Windows process, and the variables that the process finds in it.
Names and values of the system are lists of the units of UTF-16. -/
namespace Velacritty

/-! ### The first of each key -/

section Firsts
variable {α κ : Type} [DecidableEq κ] {key : α → κ} {given kept : List α}

structure Firsts (key : α → κ) (given kept : List α) : Prop where
  sublist : kept.Sublist given
  distinct : (kept.map key).Nodup
  find? : ∀ k, (kept.find? fun a => key a = k) = given.find? fun a => key a = k

theorem Firsts.nil (key : α → κ) : Firsts key [] [] := ⟨.refl [], List.nodup_nil, fun _ => rfl⟩

theorem Firsts.keep (h : Firsts key given kept) {a : α} (hnew : key a ∉ kept.map key) :
    Firsts key (given ++ [a]) (kept ++ [a]) := by
  refine ⟨h.sublist.append (.refl [a]), ?_, fun k => ?_⟩
  · rw [List.map_append, List.map_singleton, List.nodup_append]
    refine ⟨h.distinct, by simp, fun k hk k' hk' heq => ?_⟩
    obtain rfl := List.mem_singleton.mp hk'
    exact hnew (heq ▸ hk)
  · rw [List.find?_append, List.find?_append, h.find? k]

theorem Firsts.leave (h : Firsts key given kept) {a : α} (hold : key a ∈ kept.map key) :
    Firsts key (given ++ [a]) kept := by
  refine ⟨h.sublist.trans (List.sublist_append_left _ _), h.distinct, fun k => ?_⟩
  rw [List.find?_append, h.find? k]
  by_cases hk : key a = k
  · obtain ⟨b, hb⟩ : ∃ b, (given.find? fun a => key a = k) = some b := by
      rw [← Option.isSome_iff_exists, ← h.find? k, List.find?_isSome]
      obtain ⟨b, hb, hkey⟩ := List.mem_map.mp hold
      exact ⟨b, hb, by simp [hkey, hk]⟩
    rw [hb, Option.some_or]
  · simp [hk]

end Firsts

/-! ### The block -/

/-- A text of the operating system. -/
abbrev OsStr := List UInt16

abbrev EnvVar := OsStr × OsStr

/-- `OsStr::encode_wide`. -/
def encodeWide (text : List Char) : OsStr :=
  text.flatMap fun c =>
    if c.toNat < 0x10000 then [c.toNat.toUInt16]
    else [(0xd800 + (c.toNat - 0x10000) / 0x400).toUInt16, (0xdc00 + (c.toNat - 0x10000) % 0x400).toUInt16]

/-- Only the letters of ASCII have upper case ones. -/
def toAsciiUppercase (text : OsStr) : OsStr :=
  text.map fun unit => if 0x61 ≤ unit ∧ unit ≤ 0x7a then unit - 0x20 else unit

def addWindowsEnvKeyValueToBlock (block key value : OsStr) : OsStr :=
  block ++ key ++ [0x3d] ++ value ++ [0]

/-- A block that is made, with the keys it has, and the pairs that were left out with a warning. -/
structure EnvBlock where
  convertedBlock : OsStr := []
  allEnvKeys : List OsStr := []
  omitted : List EnvVar := []
  deriving DecidableEq, Repr

namespace EnvBlock

def addCustom (b : EnvBlock) (v : EnvVar) : EnvBlock :=
  if toAsciiUppercase v.1 ∈ b.allEnvKeys then { b with omitted := b.omitted ++ [v] }
  else { b with
    convertedBlock := addWindowsEnvKeyValueToBlock b.convertedBlock v.1 v.2
    allEnvKeys := b.allEnvKeys ++ [toAsciiUppercase v.1] }

def addInherited (b : EnvBlock) (v : EnvVar) : EnvBlock :=
  if toAsciiUppercase v.1 ∈ b.allEnvKeys then b
  else { b with
    convertedBlock := addWindowsEnvKeyValueToBlock b.convertedBlock v.1 v.2
    allEnvKeys := b.allEnvKeys ++ [toAsciiUppercase v.1] }

end EnvBlock

/-- The block for the variables of the config, in the order that their map gives them in, and the
pairs it leaves out. -/
def convertCustomEnv (customEnv : List (List Char × List Char)) (varsOs : List EnvVar) :
    Option (OsStr × List EnvVar) :=
  if customEnv.isEmpty then none
  else
    let custom := (customEnv.map fun (key, value) => (encodeWide key, encodeWide value)).foldl
      EnvBlock.addCustom {}
    let block := varsOs.foldl EnvBlock.addInherited custom
    some (block.convertedBlock ++ [0], block.omitted)

/-! ### How a process reads it -/

/-- The strings of a block, up to the empty one. -/
def readStrings (begun : OsStr) : OsStr → Option (List OsStr)
  | [] => none
  | unit :: rest =>
      if unit = 0 then if begun = [] then some [] else (readStrings [] rest).map (begun :: ·)
      else readStrings (begun ++ [unit]) rest

/-- The name and value of a string: an equals sign at its beginning belongs to the name. -/
def readVariable : OsStr → Option EnvVar
  | [] => none
  | unit :: rest =>
      if 0x3d ∈ rest then
        some (unit :: rest.takeWhile (· ≠ 0x3d), (rest.dropWhile (· ≠ 0x3d)).tail)
      else none

def readVariables (block : OsStr) : Option (List EnvVar) :=
  (readStrings [] block).map fun strings => strings.filterMap readVariable

def childEnv (customEnv : List (List Char × List Char)) (varsOs : List EnvVar) : Option (List EnvVar) :=
  match convertCustomEnv customEnv varsOs with
  | none => some varsOs
  | some (block, _) => readVariables block

/-- What the system takes for a variable: a name that is not empty, no equals sign in it behind its
first unit, and no null. -/
structure EnvVar.WellFormed (v : EnvVar) : Prop where
  name : v.1 ≠ []
  equals : 0x3d ∉ v.1.tail
  name_null : 0 ∉ v.1
  value_null : 0 ∉ v.2

namespace EnvVar
variable {v : EnvVar}

def string (v : EnvVar) : OsStr := v.1 ++ [0x3d] ++ v.2

theorem WellFormed.string (h : v.WellFormed) : v.string ≠ [] ∧ 0 ∉ v.string := by
  refine ⟨by simp [EnvVar.string], ?_⟩
  simp only [EnvVar.string, List.mem_append, List.mem_singleton, not_or]
  exact ⟨⟨h.name_null, by decide⟩, h.value_null⟩

theorem readVariable_string (h : v.WellFormed) : readVariable v.string = some v := by
  obtain ⟨name, value⟩ := v
  cases name with
  | nil => exact absurd rfl h.name
  | cons unit rest =>
      have hrest : ∀ u ∈ rest, (decide (u ≠ 0x3d)) = true := fun u hu =>
        decide_eq_true fun heq => h.equals (heq ▸ hu)
      simp only [EnvVar.string, List.cons_append, readVariable, List.append_assoc]
      rw [if_pos (List.mem_append_right _ List.mem_cons_self), List.takeWhile_append_of_pos hrest,
        List.dropWhile_append_of_pos hrest]
      simp

end EnvVar

theorem readStrings_append {begun text : OsStr} (hne : begun ++ text ≠ []) (hnull : 0 ∉ text) (rest : OsStr) :
    readStrings begun (text ++ [0] ++ rest) = (readStrings [] rest).map ((begun ++ text) :: ·) := by
  induction text generalizing begun with
  | nil =>
      rw [List.append_nil] at hne ⊢
      simp [readStrings, hne]
  | cons unit text ih =>
      have hunit : unit ≠ 0 := fun heq => hnull (heq ▸ List.mem_cons_self)
      simp only [List.cons_append, readStrings, if_neg hunit]
      rw [ih (by simp) fun hmem => hnull (List.mem_cons_of_mem _ hmem)]
      simp

theorem readStrings_block {strings : List OsStr} (h : ∀ s ∈ strings, s ≠ [] ∧ 0 ∉ s) :
    readStrings [] (strings.flatMap (· ++ [0]) ++ [0]) = some strings := by
  induction strings with
  | nil => rfl
  | cons s strings ih =>
      obtain ⟨hne, hnull⟩ := h s List.mem_cons_self
      have hread := readStrings_append (show [] ++ s ≠ [] from hne) hnull (strings.flatMap (· ++ [0]) ++ [0])
      rw [List.flatMap_cons, List.append_assoc, hread, ih fun s hs => h s (List.mem_cons_of_mem _ hs)]
      rfl

/-- The block is that of the first variable with each name, in the order they were given in. -/
structure EnvBlock.Built (given : List EnvVar) (b : EnvBlock) (kept : List EnvVar) : Prop where
  firsts : Firsts (fun v => toAsciiUppercase v.1) given kept
  block : b.convertedBlock = (kept.map EnvVar.string).flatMap (· ++ [0])
  keys : b.allEnvKeys = kept.map fun v => toAsciiUppercase v.1

namespace EnvBlock
variable {given kept vars : List EnvVar} {b : EnvBlock}

theorem Built.keep (h : b.Built given kept) {v : EnvVar} (hnew : toAsciiUppercase v.1 ∉ b.allEnvKeys) :
    Built (given ++ [v]) { b with
      convertedBlock := addWindowsEnvKeyValueToBlock b.convertedBlock v.1 v.2
      allEnvKeys := b.allEnvKeys ++ [toAsciiUppercase v.1] } (kept ++ [v]) := by
  rw [h.keys] at hnew
  refine ⟨h.firsts.keep hnew, ?_, ?_⟩
  · simp [addWindowsEnvKeyValueToBlock, h.block, EnvVar.string]
  · simp [h.keys]

theorem Built.addCustom (h : b.Built given kept) (v : EnvVar) :
    ∃ kept', (b.addCustom v).Built (given ++ [v]) kept' := by
  unfold EnvBlock.addCustom
  split
  · next hold => exact ⟨kept, h.firsts.leave (h.keys ▸ hold), h.block, h.keys⟩
  · next hnew => exact ⟨_, h.keep hnew⟩

theorem Built.addInherited (h : b.Built given kept) (v : EnvVar) :
    ∃ kept', (b.addInherited v).Built (given ++ [v]) kept' := by
  unfold EnvBlock.addInherited
  split
  · next hold => exact ⟨kept, h.firsts.leave (h.keys ▸ hold), h.block, h.keys⟩
  · next hnew => exact ⟨_, h.keep hnew⟩

/-- What each step keeps up holds after all of them. -/
theorem Built.foldl {add : EnvBlock → EnvVar → EnvBlock}
    (hadd : ∀ {given kept b}, Built given b kept → ∀ v, ∃ kept', (add b v).Built (given ++ [v]) kept')
    (h : b.Built given kept) (vars : List EnvVar) :
    ∃ kept', (vars.foldl add b).Built (given ++ vars) kept' := by
  induction vars generalizing given kept b with
  | nil => exact ⟨kept, (List.append_nil given).symm ▸ h⟩
  | cons v vars ih =>
      obtain ⟨kept', h'⟩ := hadd h v
      obtain ⟨kept'', h''⟩ := ih h'
      rw [List.append_assoc, List.singleton_append] at h''
      exact ⟨kept'', h''⟩

theorem Built.reads (h : b.Built given kept) (hgiven : ∀ v ∈ given, v.WellFormed) :
    readVariables (b.convertedBlock ++ [0]) = some kept := by
  have hkept (v : EnvVar) (hv : v ∈ kept) : v.WellFormed := hgiven v (h.firsts.sublist.subset hv)
  have hstrings : ∀ s ∈ kept.map EnvVar.string, s ≠ [] ∧ 0 ∉ s := by
    intro s hs
    obtain ⟨v, hv, rfl⟩ := List.mem_map.mp hs
    exact (hkept v hv).string
  rw [readVariables, h.block, readStrings_block hstrings, Option.map_some, List.filterMap_map]
  have hread : kept.filterMap (readVariable ∘ EnvVar.string) = kept.filterMap some :=
    List.filterMap_congr fun v hv => EnvVar.readVariable_string (hkept v hv)
  rw [hread, List.filterMap_some]

end EnvBlock

def customVars (customEnv : List (List Char × List Char)) : List EnvVar :=
  customEnv.map fun (key, value) => (encodeWide key, encodeWide value)

/-- The new process has each variable once, the custom ones before the inherited ones of the same
name, and no others. -/
theorem childEnv_overlays {customEnv : List (List Char × List Char)} {varsOs : List EnvVar}
    (hcustom : ∀ v ∈ customVars customEnv, v.WellFormed) (hvars : ∀ v ∈ varsOs, v.WellFormed)
    (hdistinct : (varsOs.map fun v => toAsciiUppercase v.1).Nodup) :
    ∃ vars, childEnv customEnv varsOs = some vars ∧
      (vars.map fun v => toAsciiUppercase v.1).Nodup ∧
      vars.Sublist (customVars customEnv ++ varsOs) ∧
      ∀ name, (vars.find? fun v => toAsciiUppercase v.1 = toAsciiUppercase name) =
        ((customVars customEnv).find? fun v => toAsciiUppercase v.1 = toAsciiUppercase name).or
          (varsOs.find? fun v => toAsciiUppercase v.1 = toAsciiUppercase name) := by
  cases customEnv with
  | nil => exact ⟨varsOs, rfl, hdistinct, .refl _, fun name => rfl⟩
  | cons entry customEnv =>
      obtain ⟨kept, hbuilt⟩ : ∃ kept, ((customVars (entry :: customEnv)).foldl EnvBlock.addCustom {}).Built
          ([] ++ customVars (entry :: customEnv)) kept :=
        EnvBlock.Built.foldl (fun h v => h.addCustom v) ⟨.nil _, rfl, rfl⟩ _
      obtain ⟨kept', hbuilt'⟩ := hbuilt.foldl (fun h v => h.addInherited v) varsOs
      rw [List.nil_append] at hbuilt'
      refine ⟨kept', hbuilt'.reads fun v hv => (List.mem_append.mp hv).elim (hcustom v) (hvars v),
        hbuilt'.firsts.distinct, hbuilt'.firsts.sublist, fun name => ?_⟩
      rw [hbuilt'.firsts.find?, List.find?_append]

/-- A path that the config overrides in another case, beside the current directory of a drive. -/
theorem childEnv_overlays_path : ∃ vars,
    childEnv [("Path".toList, "b".toList)] [(encodeWide "=C:".toList, encodeWide "C:\\".toList),
      (encodeWide "PATH".toList, encodeWide "a".toList)] = some vars ∧
    (vars.find? fun v => toAsciiUppercase v.1 = toAsciiUppercase (encodeWide "path".toList)) =
      some (encodeWide "Path".toList, encodeWide "b".toList) := by
  have hcustom : ∀ v ∈ customVars [("Path".toList, "b".toList)], v.WellFormed := by
    intro v hv
    obtain rfl := List.mem_singleton.mp hv
    exact ⟨by decide, by decide, by decide, by decide⟩
  have hinherited : ∀ v ∈ ([(encodeWide "=C:".toList, encodeWide "C:\\".toList),
      (encodeWide "PATH".toList, encodeWide "a".toList)] : List EnvVar), v.WellFormed := by
    intro v hv
    rcases List.mem_pair.mp hv with rfl | rfl <;> exact ⟨by decide, by decide, by decide, by decide⟩
  obtain ⟨vars, hvars, -, -, hfind⟩ := childEnv_overlays hcustom hinherited (by decide)
  exact ⟨vars, hvars, (hfind _).trans (by decide)⟩

end Velacritty
